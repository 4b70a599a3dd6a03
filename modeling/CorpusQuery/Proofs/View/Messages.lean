import CorpusQuery.Proofs.Document.Filtering
import CorpusQuery.Proofs.Job.Reports
import CorpusQuery.Proofs.View.Refusals

/-!
# The messages about a view

All that can be reported while a view is computed: that a document could not be read or has bad
front matter, that a leaf of the filter could not be parsed or applied, and a few notices about the
view as a whole (`reports_rows`, `reports_materialize`). A message about a leaf that could not be
parsed, and a compile error, come from a leaf that does not compile.
-/

namespace CorpusQuery

open Job Document Event

namespace Message

/-- What reading a document can report. -/
inductive OfReading (corpus : Corpus) (doc : Document) : Message → Prop
  | unread (details : String) : OfReading corpus doc
    (corpus.message .warning s!"could not read metadata from {doc.path}" details)
  | properties (details : String) : OfReading corpus doc
    (corpus.message .warning s!"bad properties for file {doc.path}" details)

/-- What checking a document against a filter can report. -/
inductive OfCheck (corpus : Corpus) (doc : Document) (filter : Filter) : Message → Prop
  | reading {m : Message} (h : m.OfReading corpus doc) : OfCheck corpus doc filter m
  | unparsed {leaf : FieldFilter} (h : filter.IsLeaf leaf) {e : CompileError}
    (fails : Expr.compile leaf.source = .error e) : OfCheck corpus doc filter
    (corpus.message .warning s!"could not parse filter `{leaf.source}`" e.message)
  | unapplied {leaf : FieldFilter} (h : filter.IsLeaf leaf) (details : String) :
    OfCheck corpus doc filter
    (corpus.message .warning s!"could not apply filter `{leaf.source}` to {doc.path}" details)

/-- What deciding on the order of rows can report. -/
inductive OfOrder (corpus : Corpus) : Message → Prop
  | dropped (details : String) : OfOrder corpus
    (corpus.message .warning "sort entry dropped" details)
  | unsorted (details : String) : OfOrder corpus
    (corpus.message .warning "view is not sorted" details)
  | default (view details : String) : OfOrder corpus
    (corpus.message .info s!"view {view} has no sort" details)

/-- What computing a view with a filter can report. -/
inductive OfView (corpus : Corpus) (filter : Filter) : Message → Prop
  | document {doc : Document} {m : Message} (h : m.OfCheck corpus doc filter) :
    OfView corpus filter m
  | order {m : Message} (h : m.OfOrder corpus) : OfView corpus filter m
  | problems (details : String) : OfView corpus filter
    (corpus.message .warning "problems during base rendering" details)

/-- Only a leaf that does not compile is reported as one that could not be parsed. -/
theorem OfView.leaf_of_begins {corpus : Corpus} {filter : Filter} {m : Message}
    (h : m.OfView corpus filter) (hbegins : m.Begins "could not parse filter") :
    ∃ leaf problem, filter.IsLeaf leaf ∧ Expr.compile leaf.source = .error problem := by
  cases h with
  | document h =>
    cases h with
    | unparsed hleaf fails => exact ⟨_, _, hleaf, fails⟩
    | unapplied hleaf => simp [Begins, Corpus.message, toString] at hbegins
    | reading h => cases h <;> simp [Begins, Corpus.message, toString] at hbegins
  | order h => cases h <;> simp [Begins, Corpus.message, toString] at hbegins
  | problems => simp [Begins, Corpus.message] at hbegins

end Message

open Message

/-- The errors that come of an expression that does not compile. -/
inductive Error.OfCompile (problem : CompileError) : Error → Prop
  | compile : OfCompile problem (.compile problem)
  | cell (column document : String) {e : Error} (h : OfCompile problem e) :
    OfCompile problem (.cell column document e)

namespace Document

variable {snapshot : Snapshot} {doc : Document}

/-! ## Documents -/

theorem messages_resolutions (links : List Resolution) :
    messages (links.flatMap Resolution.events) = [] := by
  induction links with
  | nil => rfl
  | cons link links ih =>
    rw [List.flatMap_cons, messages_append, ih]
    cases link <;> rfl

/-- A document is reported once, if at all, when it is read. -/
theorem messages_extract (snapshot : Snapshot) (doc : Document) :
    messages (Content.extract snapshot doc).2 = [] ∨
      ∃ m, messages (Content.extract snapshot doc).2 = [m] ∧ m.OfReading snapshot.corpus doc := by
  unfold Content.extract
  split
  · split
    · unfold Content.ofText
      simp only [messages_append, messages_resolutions, List.append_nil]
      split
      · exact .inl rfl
      · exact .inl rfl
      · rw [messages_events]
        exact .inr ⟨_, rfl, .properties _⟩
    · rw [messages_events]
      exact .inr ⟨_, rfl, .unread _⟩
  · exact .inl rfl

theorem reports_content : Reports (OfReading snapshot.corpus doc) (doc.content snapshot) := by
  intro content m hm
  cases content with
  | some content => cases hm
  | none =>
    rw [run_content_none] at hm
    rcases messages_extract snapshot doc with hnone | ⟨m', hone, hkind⟩
    · rw [hnone] at hm
      cases hm
    · rw [hone, List.mem_singleton] at hm
      exact hm ▸ hkind

theorem reports_evaluate (e : Expr) :
    Reports (OfReading snapshot.corpus doc) (e.evaluate (doc.scope snapshot)) :=
  evaluate_composable composable_reports reports_content e

end Document

/-! ## Filters -/

section

variable {snapshot : Snapshot} {doc : Document}

theorem FieldFilter.reports_check {filter : Filter} {leaf : FieldFilter} (h : filter.IsLeaf leaf) :
    Reports (OfCheck snapshot.corpus doc filter) (leaf.check snapshot doc) := by
  have hcompiled := leaf.compiled_eq
  unfold FieldFilter.check
  cases hresult : leaf.compiled with
  | error e =>
    have hfails : Expr.compile leaf.source = .error e := hcompiled.symm.trans hresult
    exact reports_unless ((Reports.notify (.unparsed h hfails)).bind fun _ => .pure true)
  | ok expr =>
    have hcheck : Reports (OfCheck snapshot.corpus doc filter) (expr.check (doc.scope snapshot)) :=
      ((reports_evaluate expr).bind fun _ => .pure _).mono .reading
    refine hcheck.attempt.bind fun result => ?_
    cases result with
    | ok passed => exact .pure passed
    | error e => exact reports_unless ((Reports.notify (.unapplied h _)).bind fun _ => .pure true)

theorem Filter.reports_check (filter : Filter) :
    Reports (OfCheck snapshot.corpus doc filter) (filter.check snapshot doc) :=
  check_of_leaves doc (P := fun check => Reports (OfCheck snapshot.corpus doc filter)
    (check snapshot)) .pure .bind filter fun _ h => FieldFilter.reports_check h

theorem Error.OfDocument.not_ofCompile {e : Error} (h : e.OfDocument) {problem : CompileError} :
    ¬e.OfCompile problem := by
  cases h <;> nofun

/-- An error that tells of an expression that does not compile tells of a leaf of the filter. -/
def Filter.Explains (filter : Filter) (e : Error) : Prop :=
  ∀ problem, e.OfCompile problem →
    ∃ leaf, filter.IsLeaf leaf ∧ Expr.compile leaf.source = .error problem

theorem Filter.raises_compile (filter : Filter) :
    Raises filter.Explains (filter.check snapshot doc) := by
  refine check_of_leaves doc (P := fun check => Raises _ (check snapshot)) .pure .bind filter
    fun leaf hleaf => ?_
  have hcompiled := leaf.compiled_eq
  unfold FieldFilter.check
  cases hresult : leaf.compiled with
  | error e =>
    refine raises_unless (fun _ problem h => ?_) ((Raises.report _).bind fun _ => .pure _)
    cases h
    exact ⟨leaf, hleaf, hcompiled.symm.trans hresult⟩
  | ok expr =>
    have hcheck : Raises Error.OfDocument (expr.check (doc.scope snapshot)) :=
      (Definition.raises_evaluate doc expr).bind fun _ => .pure _
    refine hcheck.attempt_bind (fun passed => .pure _) fun e he => ?_
    exact raises_unless (fun _ problem h => absurd h he.not_ofCompile)
      ((Raises.report _).bind fun _ => .pure _)

end

namespace Definition

variable {σ : Type} {snapshot : Snapshot} {doc : Document}

theorem reports_gather (filter : Filter) (files : List RelPath) :
    Reports (OfView snapshot.corpus filter) (gather snapshot filter files : Job σ _) := by
  induction files with
  | nil => exact .pure _
  | cons file files ih =>
    refine ((filter.reports_check.aside none).mono .document).bind fun _ => ?_
    exact ih.bind fun _ => .pure _

/-! ## Cells -/

theorem reports_value (definition : Definition) (column : String) :
    Reports (OfReading snapshot.corpus doc) (definition.value snapshot doc column) := by
  unfold Definition.value
  split
  · split
    · exact reports_evaluate _
    · exact .throw _
  · exact property_composable composable_reports reports_content true _

theorem reports_valueOrProblem (definition : Definition) (column : String) :
    Reports (OfReading snapshot.corpus doc) (definition.valueOrProblem snapshot doc column) := by
  refine (reports_value definition column).attempt.bind fun result => ?_
  cases result with
  | ok value => exact .pure _
  | error e => exact reports_unless (.pure _)

theorem reports_values (definition : Definition) (columns : List String) :
    Reports (OfReading snapshot.corpus doc) (definition.values snapshot doc columns) := by
  induction columns with
  | nil => exact .pure _
  | cons column columns ih =>
    rw [values_cons]
    exact (reports_valueOrProblem definition column).bind fun _ => ih.bind fun _ => .pure _

theorem reports_rowsOf (definition : Definition) (filter : Filter) (columns : List String)
    (documents : List OpenDocument) :
    Reports (OfView snapshot.corpus filter)
      (definition.rowsOf snapshot columns documents : Job σ _) := by
  induction documents with
  | nil => exact .pure _
  | cons opened rest ih =>
    refine (((reports_values definition columns).aside _).mono fun h => .document (.reading h)).bind
      fun _ => ?_
    exact ih.bind fun _ => .pure _

theorem messages_problemEvents (corpus : Corpus) (problems : List String) :
    messages (problemEvents corpus problems) = [] ∨
      ∃ details, messages (problemEvents corpus problems) =
        [corpus.message .warning "problems during base rendering" details] := by
  have hlog : messages (problems.map (Event.log .warning ·)) = [] := by
    induction problems with
    | nil => rfl
    | cons problem problems ih => exact ih
  unfold problemEvents
  split
  · exact .inl rfl
  · split
    · rw [messages_events]
      exact .inr ⟨_, rfl⟩
    · rw [messages_append, hlog, messages_events]
      exact .inr ⟨_, rfl⟩

/-! ## Views -/

theorem reports_sortColumns (definition : Definition) (corpus : Corpus) (view : String)
    (entries : List SortEntry) :
    Reports (OfOrder corpus) (definition.sortColumns corpus view entries : Job σ _) := by
  induction entries with
  | nil => exact .pure _
  | cons entry entries ih =>
    rw [sortColumns]
    split
    · exact ih.bind fun _ => .pure _
    · exact reports_unless ((Reports.notify (.dropped _)).bind fun _ => ih)

theorem reports_sortPlan (corpus : Corpus) (view : View) (layout : Layout)
    (sorts : List SortColumn) :
    Reports (OfOrder corpus) (sortPlan corpus view layout sorts : Job σ _) :=
  sortPlan_induction (P := fun job => Reports _ job) .pure .bind (.notify (.unsorted _))
    (fun details => .notify (.default view.name details)) layout sorts

theorem reports_arrange (definition : Definition) (corpus : Corpus) (view : View)
    (sorts : List SortColumn) (values : List (List Value)) :
    Reports (OfOrder corpus) (definition.arrange corpus view sorts values : Job σ _) :=
  (reports_sortPlan _ _ _ _).bind fun _ => .pure _

theorem reports_rows (definition : Definition) (view : View) :
    Reports (OfView snapshot.corpus (definition.filter.both view.filter))
      (definition.rows snapshot view : Job σ _) := by
  rw [rows_eq]
  refine (reports_gather _ _).bind fun documents => ?_
  refine ((reports_sortColumns _ _ _ _).mono .order).bind fun sorts => ?_
  refine (reports_rowsOf _ _ _ _).bind fun values => ?_
  refine Reports.bind (.report fun m hm => ?_) fun _ => (reports_arrange _ _ _ _ _).mono .order
  rcases messages_problemEvents snapshot.corpus values.2 with hnone | ⟨details, hone⟩
  · rw [hnone] at hm
    cases hm
  · rw [hone, List.mem_singleton] at hm
    exact hm ▸ .problems details

/-- A call reports what the computation of its view reports, if it computes the view at all. -/
theorem messages_materialize (definition : Definition) (corpus : Corpus) (around : Surroundings)
    (name : String) (force : Bool) (desk : Desk) :
    messages ((definition.materialize corpus around name force).run desk).events = [] ∨
      ∃ view ∈ definition.views, ∃ index, Index.ofDisk around.disk corpus.root = .ok index ∧
        messages ((definition.materialize corpus around name force).run desk).events =
          messages ((definition.rowsFrom corpus around view index).run desk).events := by
  cases hview : definition.view name with
  | error e =>
    rw [run_materialize_of_unknown hview]
    exact .inl rfl
  | ok view =>
    rcases hit_or_miss definition corpus around view force desk with ⟨rfl, sheet, hhit⟩ | hmiss
    · rw [run_materialize_of_hit hview hhit, messages_append, around.messages_sweepEvents]
      exact .inl rfl
    · cases hwalk : Index.ofDisk around.disk corpus.root with
      | error fault =>
        obtain ⟨events, before, hevents, -, -, hrun⟩ := run_materialize_of_miss hview hmiss
        rw [hrun, messages_append, hevents, run_recompute_of_fault hwalk]
        exact .inl rfl
      | ok index =>
        exact .inr ⟨view, (mem_of_view hview).1, index, rfl,
          messages_materialize_of_miss hview hmiss hwalk⟩

theorem reports_materialize {definition : Definition} {corpus : Corpus} {around : Surroundings}
    {name : String} {force : Bool} {desk : Desk} {m : Message}
    (h : m ∈ messages ((definition.materialize corpus around name force).run desk).events) :
    ∃ view ∈ definition.views, m.OfView corpus (definition.filter.both view.filter) := by
  rcases messages_materialize definition corpus around name force desk with
    hnone | ⟨view, hview, index, -, heq⟩
  · rw [hnone] at h
    cases h
  · rw [heq] at h
    exact ⟨view, hview, reports_rows definition view desk m h⟩

/-! ## Errors of compilation -/

theorem raises_value (definition : Definition) (doc : Document) (column : String) :
    Raises Error.OfDocument (definition.value snapshot doc column) := by
  unfold Definition.value
  split
  · split
    · exact raises_evaluate doc _
    · exact .throw (.field _ _)
  · exact property_composable (composable_raises id) raises_content true _

theorem raises_compile_valueOrProblem (filter : Filter) (definition : Definition) (doc : Document)
    (column : String) :
    Raises filter.Explains (definition.valueOrProblem snapshot doc column) := by
  refine (raises_value definition doc column).attempt_bind (fun value => .pure _) fun e he => ?_
  refine raises_unless (fun _ problem hcompile => ?_) (.pure _)
  cases hcompile with
  | cell _ _ h => exact absurd h he.not_ofCompile

theorem raises_compile_rowsOf (filter : Filter) (definition : Definition) (columns : List String)
    (documents : List OpenDocument) :
    Raises filter.Explains (definition.rowsOf snapshot columns documents : Job σ _) := by
  have hvalues (doc : Document) (columns : List String) :
      Raises filter.Explains (definition.values snapshot doc columns) := by
    induction columns with
    | nil => exact .pure _
    | cons column columns ih =>
      rw [values_cons]
      exact (raises_compile_valueOrProblem filter definition doc column).bind fun _ =>
        ih.bind fun _ => .pure _
  induction documents with
  | nil => exact .pure _
  | cons opened rest ih =>
    exact ((hvalues _ _).aside _).bind fun _ => ih.bind fun _ => .pure _

theorem raises_compile_rows (definition : Definition) (view : View) :
    Raises (definition.filter.both view.filter).Explains
      (definition.rows snapshot view : Job σ _) := by
  have hgather (filter : Filter) (files : List RelPath) :
      Raises filter.Explains (gather snapshot filter files : Job σ _) := by
    induction files with
    | nil => exact .pure _
    | cons file files ih =>
      exact (filter.raises_compile.aside none).bind fun _ => ih.bind fun _ => .pure _
  have hsorts (filter : Filter) (entries : List SortEntry) :
      Raises filter.Explains
        (definition.sortColumns snapshot.corpus view.name entries : Job σ _) := by
    induction entries with
    | nil => exact .pure _
    | cons entry entries ih =>
      rw [sortColumns]
      split
      · exact ih.bind fun _ => .pure _
      · exact raises_unless (fun _ problem h => by cases h) ((Raises.report _).bind fun _ => ih)
  rw [rows_eq]
  refine (hgather _ _).bind fun documents => (hsorts _ _).bind fun sorts => ?_
  refine (raises_compile_rowsOf _ _ _ _).bind fun values => (Raises.report _).bind fun _ => ?_
  refine Raises.bind ?_ fun _ => .pure _
  exact sortPlan_induction (P := fun job => Raises _ job) .pure .bind (.report _)
    (fun _ => .report _) _ sorts

/-- A call fails for an expression that does not compile only if it is a leaf of a filter. -/
theorem compile_error_of_materialize {definition : Definition} {corpus : Corpus}
    {around : Surroundings} {name : String} {force : Bool} {desk : Desk} {e : Error}
    {problem : CompileError}
    (h : ((definition.materialize corpus around name force).run desk).result = .error e)
    (hcompile : e.OfCompile problem) :
    ∃ view ∈ definition.views, ∃ leaf, (definition.filter.both view.filter).IsLeaf leaf ∧
      Expr.compile leaf.source = .error problem := by
  cases hview : definition.view name with
  | error e' =>
    rw [run_materialize_of_unknown hview] at h
    cases h
    rw [(view_error_iff.mp hview).1] at hcompile
    cases hcompile
  | ok view =>
    refine ⟨view, (mem_of_view hview).1, ?_⟩
    rcases hit_or_miss definition corpus around view force desk with ⟨rfl, sheet, hhit⟩ | hmiss
    · rw [run_materialize_of_hit hview hhit] at h
      cases h
    · cases hwalk : Index.ofDisk around.disk corpus.root with
      | error fault =>
        rw [result_materialize_of_fault hview hmiss hwalk] at h
        cases h
        cases hcompile
      | ok index =>
        rw [result_materialize_of_miss hview hmiss hwalk] at h
        cases hrows : ((definition.rowsFrom corpus around view index).run desk).result with
        | ok rows =>
          rw [hrows] at h
          cases h
        | error e' =>
          rw [hrows] at h
          cases h
          exact raises_compile_rows definition view desk e hrows problem hcompile

end Definition

end CorpusQuery
