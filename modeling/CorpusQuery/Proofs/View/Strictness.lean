import CorpusQuery.Proofs.Definition.Strictness
import CorpusQuery.Proofs.View.Correspondence
import CorpusQuery.Proofs.View.Refusals

/-!
# Views in strict and in lenient corpora

The rows of a view are computed in a corpus that is strict about everything and in one that is
strict about nothing. A strict run fails exactly where a lenient one complains about a filter, a
sort entry or a cell; without a complaint the two runs give the same rows.
-/

namespace CorpusQuery

open Job Event

/-- How the messages begin that report a filter, a sort entry or a cell that a strict corpus
refuses. -/
def viewComplaints : List String :=
  ["could not parse filter", "could not apply filter", "sort entry dropped",
    "problems during base rendering"]

/-- Whether a message reports a filter, a sort entry or a cell that a strict corpus refuses. -/
def Message.isViewComplaint (m : Message) : Bool :=
  viewComplaints.any fun opening => opening.toList.isPrefixOf m.text.toList

/-- A corpus at one moment, with both kinds of strictness set or not set. -/
def Snapshot.withStrictness (snapshot : Snapshot) (strict : Bool) : Snapshot :=
  { snapshot with corpus := snapshot.corpus.withStrictness strict }

namespace Definition

variable {σ : Type} (snapshot : Snapshot)

/-- A strict and a lenient run of the same step towards the rows of a view. -/
abbrev ShowAlike {α : Type} (job : Snapshot → Job σ α) : Prop :=
  Job.Paired Message.isViewComplaint (fun _ _ => True)
    (job (snapshot.withStrictness true)) (job (snapshot.withStrictness false))

/-! ## Documents do not depend on strictness -/

theorem isViewComplaint_of_reading (corpus : Corpus) (severity : Severity) (path details : String) :
    (corpus.message severity s!"could not read metadata from {path}" details).isViewComplaint =
      false := by
  simp [Message.isViewComplaint, viewComplaints, Corpus.message, toString, List.isPrefixOf]

theorem isViewComplaint_of_properties (corpus : Corpus) (severity : Severity)
    (path details : String) :
    (corpus.message severity s!"bad properties for file {path}" details).isViewComplaint =
      false := by
  simp [Message.isViewComplaint, viewComplaints, Corpus.message, toString, List.isPrefixOf]

theorem content_withStrictness (doc : Document) (strict : Bool) :
    doc.content (snapshot.withStrictness strict) = doc.content snapshot := by
  unfold Document.content Content.extract
  rfl

theorem property_withStrictness (doc : Document) (shown strict : Bool) (path : List String) :
    doc.property (snapshot.withStrictness strict) shown path =
      doc.property snapshot shown path := by
  unfold Document.property Document.fileField Document.frontMatterProperty
  simp only [content_withStrictness]
  rfl

theorem scope_withStrictness (doc : Document) (strict : Bool) :
    doc.scope (snapshot.withStrictness strict) = doc.scope snapshot := by
  unfold Document.scope
  simp only [content_withStrictness, funext (property_withStrictness snapshot doc false strict)]

/-! ## Reading a document is no complaint -/

theorem complaints_resolutions (links : List Resolution) :
    complaints Message.isViewComplaint (links.flatMap Resolution.events) = [] := by
  induction links with
  | nil => rfl
  | cons link links ih =>
    rw [List.flatMap_cons, complaints_append, ih]
    cases link <;> rfl

theorem complaints_ofText (doc : Document) (text : String) :
    complaints Message.isViewComplaint (Content.ofText snapshot doc text).2 = [] := by
  unfold Content.ofText
  simp only [complaints_append, complaints_resolutions, List.append_nil]
  split
  · rfl
  · rfl
  · rw [complaints_events, isViewComplaint_of_properties]
    rfl

theorem complaints_extract (doc : Document) :
    complaints Message.isViewComplaint (Content.extract snapshot doc).2 = [] := by
  unfold Content.extract
  split
  · split
    · exact complaints_ofText snapshot doc _
    · rw [complaints_events, isViewComplaint_of_reading]
      rfl
  · rfl

theorem quiet_content (doc : Document) :
    Quiet Message.isViewComplaint (doc.content snapshot) := by
  intro content
  cases content with
  | none =>
    rw [Document.run_content_none]
    exact complaints_extract snapshot doc
  | some content => rfl

theorem quiet_evaluate (doc : Document) (e : Expr) :
    Quiet Message.isViewComplaint (e.evaluate (doc.scope snapshot)) :=
  Document.evaluate_composable composable_quiet (quiet_content snapshot doc) e

theorem quiet_value (definition : Definition) (doc : Document) (column : String) :
    Quiet Message.isViewComplaint (definition.value snapshot doc column) := by
  unfold Definition.value
  split
  · split
    · exact quiet_evaluate snapshot doc _
    · exact .throw _
  · exact Document.property_composable composable_quiet (quiet_content snapshot doc) true _

/-! ## Filters -/

theorem isViewComplaint_of_filter (corpus : Corpus) (severity : Severity)
    (source details : String) :
    (corpus.message severity s!"could not parse filter `{source}`" details).isViewComplaint =
      true := by
  simp [Message.isViewComplaint, viewComplaints, Corpus.message, toString, List.isPrefixOf]

theorem isViewComplaint_of_application (corpus : Corpus) (severity : Severity)
    (source path details : String) :
    (corpus.message severity s!"could not apply filter `{source}` to {path}"
      details).isViewComplaint = true := by
  simp [Message.isViewComplaint, viewComplaints, Corpus.message, toString, List.isPrefixOf]

theorem showAlike_field (filter : FieldFilter) (doc : Document) :
    ShowAlike snapshot fun snapshot => filter.check snapshot doc := by
  unfold ShowAlike FieldFilter.check
  cases filter.compiled with
  | error e =>
    exact Paired.refuse trivial fun s =>
      complaints_notify_bind (isViewComplaint_of_filter _ _ _ _) s
  | ok expr =>
    simp only [scope_withStrictness]
    have hquiet := (quiet_evaluate snapshot doc expr).bind fun value =>
      Quiet.pure value.isTruthy
    refine Paired.bind (Quiet.attempt hquiet).paired fun result => ?_
    cases result with
    | ok passed => exact .pure passed
    | error e =>
      exact Paired.refuse trivial fun s =>
        complaints_notify_bind (isViewComplaint_of_application _ _ _ _ _) s

theorem showAlike_filter (doc : Document) (filter : Filter) :
    ShowAlike snapshot fun snapshot => filter.check snapshot doc :=
  Filter.check_induction doc (P := ShowAlike snapshot) .pure .bind
    (fun filter => showAlike_field snapshot filter doc) filter

theorem showAlike_gather (filter : Filter) (files : List RelPath) :
    ShowAlike (σ := σ) snapshot fun snapshot => gather snapshot filter files := by
  induction files with
  | nil => exact .pure _
  | cons file files ih =>
    exact ((showAlike_filter snapshot _ filter).aside none).bind fun _ => ih.bind fun _ => .pure _

/-! ## Sort orders -/

theorem isViewComplaint_of_sort (corpus : Corpus) (severity : Severity) (details : String) :
    (corpus.message severity "sort entry dropped" details).isViewComplaint = true := by
  simp [Message.isViewComplaint, viewComplaints, Corpus.message]

theorem isViewComplaint_of_view (corpus : Corpus) (severity : Severity) (text details : String) :
    (corpus.message severity s!"view {text}" details).isViewComplaint = false := by
  simp [Message.isViewComplaint, viewComplaints, Corpus.message, toString, List.isPrefixOf]

theorem showAlike_sortColumns (definition : Definition) (view : String) (entries : List SortEntry) :
    ShowAlike (σ := σ) snapshot fun snapshot =>
      definition.sortColumns snapshot.corpus view entries := by
  induction entries with
  | nil => exact .pure _
  | cons entry entries ih =>
    simp only [ShowAlike, sortColumns]
    split
    · exact ih.bind fun _ => .pure _
    · exact Paired.refuse trivial fun s =>
        complaints_notify_bind (isViewComplaint_of_sort _ _ _) s

/-- What a view is sorted by is no complaint. -/
theorem quiet_sortPlan (corpus : Corpus) (view : View) (layout : Layout) (sorts : List SortColumn) :
    Quiet Message.isViewComplaint (sortPlan corpus view layout sorts : Job σ (List SortStep)) := by
  have hunsorted : (corpus.message .warning "view is not sorted"
      s!"no usable sort entry in view {view.name}").isViewComplaint = false :=
    isViewComplaint_of_view corpus .warning "is not sorted" _
  have hdefault : ∀ details, (corpus.message .info s!"view {view.name} has no sort"
      details).isViewComplaint = false := fun details => by
    have h := isViewComplaint_of_view corpus .info (view.name ++ " has no sort") details
    simpa [toString, String.append_assoc] using h
  exact sortPlan_induction (P := fun job => Quiet _ job) .pure .bind (.notify hunsorted)
    (fun details => .notify (hdefault details)) layout sorts

/-! ## Cells -/

theorem value_withStrictness (definition : Definition) (doc : Document) (column : String)
    (strict : Bool) :
    definition.value (snapshot.withStrictness strict) doc column =
      definition.value snapshot doc column := by
  unfold value Formula.evaluate
  simp only [scope_withStrictness, property_withStrictness]

/-- Work that gives something together with what went wrong: neither run complains, the lenient one
has a result, and the strict one is the same if nothing went wrong and fails otherwise. -/
def ProblemsAlike {α : Type} (strict lenient : Job σ (α × List String)) : Prop :=
  ∀ s, complaints Message.isViewComplaint (strict.run s).events = [] ∧
    complaints Message.isViewComplaint (lenient.run s).events = [] ∧
    ∃ a problems, (lenient.run s).result = .ok (a, problems) ∧
      (problems = [] → strict.run s = lenient.run s) ∧
      (problems ≠ [] → ∃ e, (strict.run s).result = .error e)

theorem problemsAlike_pure {α : Type} (a : α) :
    ProblemsAlike (pure (a, []) : Job σ (α × List String)) (pure (a, [])) :=
  fun _ => ⟨rfl, rfl, a, [], rfl, fun _ => rfl, fun h => absurd rfl h⟩

/-- Two pieces of such work, one after the other. -/
theorem problemsAlike_join {α β γ : Type} {strict lenient : Job σ (α × List String)}
    {strict' lenient' : Job σ (β × List String)} (f : α → β → γ)
    (h : ProblemsAlike strict lenient) (h' : ProblemsAlike strict' lenient') :
    ProblemsAlike
      (do let first ← strict; let others ← strict'; pure (f first.1 others.1, first.2 ++ others.2))
      (do let first ← lenient; let others ← lenient'
          pure (f first.1 others.1, first.2 ++ others.2)) := by
  intro s
  obtain ⟨hsilent, hquiet, a, problems, hresult, hsame, hfails⟩ := h s
  obtain ⟨hsilent', hquiet', b, others, hresult', hsame', hfails'⟩ := h' (lenient.run s).state
  rw [run_bind_of_ok hresult, run_bind_of_ok hresult']
  simp only [run_pure, List.append_nil, complaints_append, hquiet, hquiet']
  by_cases hproblems : problems = []
  · have hrun := hsame hproblems
    rw [run_bind_of_ok (hrun ▸ hresult), hrun]
    by_cases hothers : others = []
    · rw [run_bind_of_ok (hsame' hothers ▸ hresult'), hsame' hothers]
      simp only [run_pure, List.append_nil, complaints_append, hquiet, hquiet']
      refine ⟨trivial, trivial, _, _, rfl, fun _ => trivial, fun hne => absurd ?_ hne⟩
      rw [hproblems, hothers]
      rfl
    · obtain ⟨e, he⟩ := hfails' hothers
      rw [run_bind_of_error he]
      simp only [complaints_append, hquiet, hsilent']
      refine ⟨rfl, trivial, _, _, rfl, fun hnil => absurd ?_ hothers, fun _ => ⟨e, rfl⟩⟩
      exact (List.append_eq_nil_iff.mp hnil).2
  · obtain ⟨e, he⟩ := hfails hproblems
    rw [run_bind_of_error he]
    refine ⟨hsilent, trivial, _, _, rfl, fun hnil => absurd ?_ hproblems, fun _ => ⟨e, rfl⟩⟩
    exact (List.append_eq_nil_iff.mp hnil).1

theorem problemsAlike_value (definition : Definition) (doc : Document) (column : String) :
    ProblemsAlike (definition.valueOrProblem (snapshot.withStrictness true) doc column)
      (definition.valueOrProblem (snapshot.withStrictness false) doc column) := by
  intro content
  have hquiet := quiet_value snapshot definition doc column content
  have hvalue := fun strict => value_withStrictness snapshot definition doc column strict
  cases hresult : ((definition.value snapshot doc column).run content).result with
  | ok value =>
    rw [run_valueOrProblem_of_ok ((hvalue true).symm ▸ hresult),
      run_valueOrProblem_of_ok ((hvalue false).symm ▸ hresult), hvalue, hvalue]
    exact ⟨hquiet, hquiet, value, [], rfl, fun _ => rfl, fun hne => absurd rfl hne⟩
  | error e =>
    rw [run_valueOrProblem_of_error ((hvalue true).symm ▸ hresult),
      run_valueOrProblem_of_error ((hvalue false).symm ▸ hresult), hvalue, hvalue]
    exact ⟨hquiet, hquiet, .str "", [missingValue column doc e], rfl, nofun, fun _ => ⟨_, rfl⟩⟩

theorem problemsAlike_values (definition : Definition) (doc : Document) (columns : List String) :
    ProblemsAlike (definition.values (snapshot.withStrictness true) doc columns)
      (definition.values (snapshot.withStrictness false) doc columns) := by
  induction columns with
  | nil => exact problemsAlike_pure []
  | cons column columns ih =>
    rw [values_cons, values_cons]
    exact problemsAlike_join _ (problemsAlike_value snapshot definition doc column) ih

theorem problemsAlike_rowValues (definition : Definition) (columns : List String)
    (opened : OpenDocument) :
    ProblemsAlike (definition.rowValues (snapshot.withStrictness true) columns opened : Job σ _)
      (definition.rowValues (snapshot.withStrictness false) columns opened) := by
  intro s
  obtain ⟨hsilent, hquiet, values, problems, hresult, hsame, hfails⟩ :=
    problemsAlike_values snapshot definition opened.document columns opened.content
  rw [run_rowValues, run_rowValues]
  refine ⟨hsilent, hquiet, values, problems, hresult, fun h => ?_, hfails⟩
  rw [hsame h]

theorem problemsAlike_rowsOf (definition : Definition) (columns : List String)
    (documents : List OpenDocument) :
    ProblemsAlike (definition.rowsOf (snapshot.withStrictness true) columns documents : Job σ _)
      (definition.rowsOf (snapshot.withStrictness false) columns documents) := by
  induction documents with
  | nil => exact problemsAlike_pure []
  | cons opened rest ih =>
    rw [rowsOf_cons, rowsOf_cons]
    exact problemsAlike_join _ (problemsAlike_rowValues snapshot definition columns opened) ih

/-- The notice about missing values is a complaint. -/
theorem complaints_problemEvents (corpus : Corpus) {problems : List String} (h : problems ≠ []) :
    ∃ m, complaints Message.isViewComplaint (problemEvents corpus problems) = [m] := by
  have hnotice : ∀ details, (corpus.message .warning "problems during base rendering"
      details).isViewComplaint = true := fun details => by
    simp [Message.isViewComplaint, viewComplaints, Corpus.message]
  have hlog : ∀ lines : List String, complaints Message.isViewComplaint
      (lines.map (Event.log .warning ·)) = [] := fun lines => by
    induction lines with
    | nil => rfl
    | cons line lines ih => exact ih
  unfold problemEvents
  rw [if_neg (by simpa using h)]
  split
  · rw [complaints_events, if_pos (hnotice _)]
    exact ⟨_, rfl⟩
  · rw [complaints_append, hlog, complaints_events, if_pos (hnotice _)]
    exact ⟨_, rfl⟩

/-- Cells and the notice about them, and what is done with the cells. -/
theorem showAlike_cells {α : Type} (definition : Definition) (columns : List String)
    (documents : List OpenDocument) {next : Snapshot → List (List Value) → Job σ α}
    (hnext : ∀ values, ShowAlike snapshot fun snapshot => next snapshot values) :
    ShowAlike snapshot fun snapshot => (do
      let (values, problems) ← definition.rowsOf snapshot columns documents
      Job.report (problemEvents snapshot.corpus problems)
      next snapshot values) := by
  intro s
  obtain ⟨hsilent, hquiet, values, problems, hresult, hsame, hfails⟩ :=
    problemsAlike_rowsOf snapshot definition columns documents s
  rw [run_bind_of_ok hresult]
  by_cases hproblems : problems = []
  · rw [run_bind_of_ok (hsame hproblems ▸ hresult), hsame hproblems]
    have hreport : Quiet Message.isViewComplaint
        (Job.report (problemEvents snapshot.corpus problems) : Job σ Unit) := by
      rw [hproblems]
      exact .report rfl
    exact (hreport.paired.bind (fun _ => hnext values) _).after hquiet
  · obtain ⟨e, he⟩ := hfails hproblems
    obtain ⟨m, hm⟩ := complaints_problemEvents (snapshot.withStrictness false).corpus hproblems
    rw [run_bind_of_error he, run_report_bind]
    refine .apart e m (complaints Message.isViewComplaint
      ((next (snapshot.withStrictness false) values).run
        ((definition.rowsOf (snapshot.withStrictness false) columns documents).run s).state).events)
      rfl hsilent ?_ trivial
    rw [complaints_append, complaints_append, hquiet, hm]
    rfl

/-! ## Rows -/

theorem showAlike_rows (definition : Definition) (view : View) :
    ShowAlike (σ := σ) snapshot fun snapshot => definition.rows snapshot view := by
  have harrange : ∀ sorts values, ShowAlike (σ := σ) snapshot fun snapshot =>
      definition.arrange snapshot.corpus view sorts values := fun sorts values =>
    (quiet_sortPlan snapshot.corpus view _ sorts).paired.bind fun _ => .pure _
  simp only [ShowAlike, rows_eq]
  refine (showAlike_gather snapshot _ _).bind fun documents => ?_
  refine (showAlike_sortColumns snapshot definition view.name view.sorts).bind fun sorts => ?_
  exact showAlike_cells snapshot definition _ documents (harrange sorts)

/-- A lenient run always has rows. -/
theorem succeeds_rows (definition : Definition) (view : View) :
    Succeeds (definition.rows (snapshot.withStrictness false) view : Job σ _) := by
  refine (raises_rows (snapshot.withStrictness false) definition view).succeeds fun e h => ?_
  cases h with
  | fields h => cases h.strict
  | sort strict => cases strict

/-! ## Materialization -/

/-- The strict run succeeds exactly if the lenient one does not complain, and then the two give the
same rows. -/
def AgreeOnSuccess (strict lenient : Outcome Desk Sheet) : Prop :=
  ((∃ sheet, strict.result = .ok sheet) ↔
    ∀ m ∈ Event.messages lenient.events, m.isViewComplaint = false) ∧
  ∀ sheet, strict.result = .ok sheet →
    ∃ lenientSheet, lenient.result = .ok lenientSheet ∧ lenientSheet.rows = sheet.rows

theorem exists_map_eq_ok {α β : Type} (f : α → β) (result : Except Error α) :
    (∃ b, result.map f = .ok b) ↔ ∃ a, result = .ok a := by
  cases result with
  | ok a => exact ⟨fun _ => ⟨a, rfl⟩, fun _ => ⟨f a, rfl⟩⟩
  | error e =>
    constructor
    · rintro ⟨b, h⟩
      cases h
    · rintro ⟨a, h⟩
      cases h

theorem get_of_empty {cache : Cache Sheet} (h : cache = .empty) (around : Surroundings)
    (key : CacheKey) : (cache.get around.ttl around.now key).1 = none := by
  rw [h]
  rfl

/-- For a view that is not cached the two corpora agree wherever the strict one succeeds: both runs
compute the rows from the same files. -/
theorem agreeOnSuccess_materialize {corpus : Corpus} {index : Index} {definition : Definition}
    {name : String} {view : View} {around : Surroundings} {strictDesk lenientDesk : Desk}
    (force : Bool) (hview : definition.view name = .ok view)
    (hwalk : Index.ofDisk around.disk corpus.root = .ok index)
    (hstrict : strictDesk.cache = .empty) (hlenient : lenientDesk.cache = .empty) :
    AgreeOnSuccess
      ((definition.materialize (corpus.withStrictness true) around name force).run strictDesk)
      ((definition.materialize (corpus.withStrictness false) around name force).run
        lenientDesk) := by
  let snapshot : Snapshot := ⟨corpus, around.disk, index⟩
  have hpaired := showAlike_rows (σ := Desk) snapshot definition view
  have hdetached := detached_rows (σ := Desk) definition (snapshot.withStrictness true) view
  have hstrictResult : ((definition.materialize (corpus.withStrictness true) around name force).run
      strictDesk).result =
      ((definition.rows (snapshot.withStrictness true) view).run lenientDesk).result.map
        (Sheet.mk strictDesk.made) := by
    rw [hdetached.run_eq strictDesk lenientDesk]
    exact result_materialize_of_miss hview (.inr (get_of_empty hstrict _ _)) hwalk
  have hlenientResult : ((definition.materialize (corpus.withStrictness false) around name
      force).run lenientDesk).result =
      ((definition.rows (snapshot.withStrictness false) view).run lenientDesk).result.map
        (Sheet.mk lenientDesk.made) :=
    result_materialize_of_miss hview (.inr (get_of_empty hlenient _ _)) hwalk
  have hmessages : Event.messages ((definition.materialize (corpus.withStrictness false) around
      name force).run lenientDesk).events =
      Event.messages ((definition.rows (snapshot.withStrictness false) view).run
        lenientDesk).events :=
    messages_materialize_of_miss hview (.inr (get_of_empty hlenient _ _)) hwalk
  constructor
  · rw [hstrictResult, hmessages, exists_map_eq_ok,
      hpaired.ok_iff_quiet (succeeds_rows snapshot definition view), Event.complaints,
      List.filter_eq_nil_iff]
    simp only [Bool.not_eq_true]
  · intro sheet hsheet
    rw [hstrictResult] at hsheet
    cases hrows : ((definition.rows (snapshot.withStrictness true) view).run
        lenientDesk).result with
    | error e =>
      rw [hrows] at hsheet
      cases hsheet
    | ok rows =>
      rw [hrows] at hsheet
      cases hsheet
      refine ⟨⟨lenientDesk.made, rows⟩, ?_, rfl⟩
      rw [hlenientResult, ← hpaired.run_eq_of_ok hrows, hrows]
      rfl

/-- A text that is a definition in a strict corpus is the same one in a lenient corpus, and for each
of its views the two corpora, with nothing cached, agree wherever the strict one succeeds. -/
theorem agreeOnSuccess_of_strict_parse {corpus : Corpus} {index : Index} {path source : String}
    {definition : Definition} {view : View} (s : σ) (around : Surroundings)
    (strictDesk lenientDesk : Desk) (force : Bool)
    (hparse : ((parse (corpus.withStrictness true) path source).run s).result = .ok definition)
    (hview : view ∈ definition.views)
    (hwalk : Index.ofDisk around.disk corpus.root = .ok index)
    (hstrict : strictDesk.cache = .empty) (hlenient : lenientDesk.cache = .empty) :
    ∃ lenientDefinition,
      ((parse (corpus.withStrictness false) path source).run s).result = .ok lenientDefinition ∧
      AgreeOnSuccess
        ((definition.materialize (corpus.withStrictness true) around view.name force).run
          strictDesk)
        ((lenientDefinition.materialize (corpus.withStrictness false) around view.name force).run
          lenientDesk) := by
  obtain ⟨shown, hshown⟩ := view_of_mem hview
  refine ⟨definition, parse_lenient_of_strict hparse, ?_⟩
  exact agreeOnSuccess_materialize force hshown hwalk hstrict hlenient

/-- The text of a view of the notes that are not cheap. -/
def noteSource : String := "views:\n- name: v\n  filters: price > 1\n  order: [price]\n"

theorem agreeOnSuccess_of_notes :
    ∃ definition lenientDefinition view,
      ((parse (noteCorpus.withStrictness true) "v.base" noteSource).run ()).result =
        .ok definition ∧
      view ∈ definition.views ∧
      Index.ofDisk noteDisk noteCorpus.root = .ok ⟨[["a.md"], ["b.md"]]⟩ ∧
      ((parse (noteCorpus.withStrictness false) "v.base" noteSource).run ()).result =
        .ok lenientDefinition ∧
      AgreeOnSuccess
        ((definition.materialize (noteCorpus.withStrictness true) ⟨noteDisk, 0, fun _ => 60⟩
          view.name false).run ⟨⟨[]⟩, .empty, 0⟩)
        ((lenientDefinition.materialize (noteCorpus.withStrictness false)
          ⟨noteDisk, 0, fun _ => 60⟩ view.name false).run ⟨⟨[]⟩, .empty, 0⟩) := by
  have hviews : (match
      ((parse (noteCorpus.withStrictness true) "v.base" noteSource).run ()).result with
      | .ok definition => definition.views.length
      | .error _ => 0) = 1 := by
    decide +kernel
  cases hparse : ((parse (noteCorpus.withStrictness true) "v.base" noteSource).run ()).result with
  | error e =>
    rw [hparse] at hviews
    cases hviews
  | ok definition =>
    rw [hparse] at hviews
    have hlength : definition.views.length = 1 := hviews
    obtain ⟨view, hview⟩ := List.exists_mem_of_length_pos (hlength ▸ Nat.one_pos)
    obtain ⟨lenientDefinition, hlenient, hagree⟩ :=
      agreeOnSuccess_of_strict_parse () ⟨noteDisk, 0, fun _ => 60⟩ ⟨⟨[]⟩, .empty, 0⟩
        ⟨⟨[]⟩, .empty, 0⟩ false hparse hview ofDisk_noteDisk rfl rfl
    exact ⟨definition, lenientDefinition, view, rfl, hview, ofDisk_noteDisk, hlenient, hagree⟩

end Definition

end CorpusQuery
