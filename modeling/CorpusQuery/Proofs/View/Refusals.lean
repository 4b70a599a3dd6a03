import CorpusQuery.Proofs.Definition.Stepwise
import CorpusQuery.Proofs.View.Correspondence

/-!
# What a corpus refuses

A corpus has two switches. The one for fields decides whether it refuses expressions that do not
compile or evaluate and cells that cannot be computed, the one for definitions whether it refuses
malformed parts of a definition and sort entries. Each error of reading a definition and of showing
a view is traced to the switch that lets it out (`raises_ofEntries`, `raises_rows`). With both
switches off only what lies outside of the definition is left (`switches_confine_errors`).
-/

namespace CorpusQuery

open Job

/-- The errors that come of expressions and properties, and of the cells that show them. -/
inductive Error.OfFields : Error → Prop
  | compile (e : CompileError) : OfFields (.compile e)
  | eval (e : EvalError) : OfFields (.eval e)
  | field (path : String) (reason : FieldError) : OfFields (.field path reason)
  | outsideRoot (path : String) : OfFields (.outsideRoot path)
  | cell (column document : String) (e : Error) : OfFields (.cell column document e)

theorem Error.OfDocument.ofFields {e : Error} (h : e.OfDocument) : e.OfFields := by
  cases h with
  | eval e => exact .eval e
  | field path reason => exact .field path reason
  | outsideRoot path => exact .outsideRoot path

namespace Corpus

/-- What a corpus refuses when it reads a definition. -/
inductive RefusesToRead (corpus : Corpus) : Error → Prop
  | formula (strict : corpus.strictFields = true) (e : CompileError) :
    RefusesToRead corpus (.compile e)
  | shape (strict : corpus.strictDefinitions = true) (problem : ShapeProblem) :
    RefusesToRead corpus (.definition problem)

/-- What a corpus refuses about fields. -/
structure RefusesFields (corpus : Corpus) (e : Error) : Prop where
  strict : corpus.strictFields = true
  ofFields : e.OfFields

/-- What a corpus refuses when it shows a view. -/
inductive RefusesToShow (corpus : Corpus) : Error → Prop
  | fields {e : Error} (h : corpus.RefusesFields e) : RefusesToShow corpus e
  | sort (strict : corpus.strictDefinitions = true) (property direction view : String) :
    RefusesToShow corpus (.sort property direction view)

end Corpus

namespace Definition

variable {σ : Type}

/-! ## Reading definitions -/

theorem raises_formula (corpus : Corpus) (name source : String) :
    Raises corpus.RefusesToRead (readFormula corpus name source : Job σ Formula) := by
  unfold readFormula
  cases Expr.compile source with
  | ok expr => exact .pure _
  | error e => exact raises_unless (.formula · e) ((Raises.report _).bind fun _ => .pure _)

theorem stepwise_raises : Stepwise (σ := σ) fun read =>
    ∀ corpus : Corpus, Raises corpus.RefusesToRead (read corpus) where
  pure a _ := .pure a
  log _ _ _ := .report _
  refuse _ problem _ := raises_unless (.shape · problem) (.report _)
  formula name source corpus := raises_formula corpus name source
  bind h hnext corpus := (h corpus).bind fun a => hnext a corpus

theorem raises_ofEntries (corpus : Corpus) (path : String)
    (entries : List (Yaml.Node × Yaml.Node)) :
    Raises corpus.RefusesToRead (ofEntries corpus path entries : Job σ Definition) :=
  stepwise_raises.ofEntries path entries corpus

/-- A YAML value that is neither a mapping nor nothing. -/
def HasNoSections (node : Yaml.Node) : Prop := node ≠ .null ∧ ∀ entries, node ≠ .mapping entries

/-- A text has no sections if it is no YAML, or if it is a value of another kind. -/
theorem entriesOf_error_iff {path source : String} {e : Error} :
    entriesOf path source = .error e ↔
      (∃ problem, rootNode source = .error (.yaml problem) ∧ e = .yaml problem) ∨
      ∃ node, rootNode source = .ok node ∧ HasNoSections node ∧
        e = .definition (.topLevel path node.toValue.kind.name) := by
  unfold entriesOf
  cases hroot : rootNode source with
  | error e' =>
    have hyaml : ∃ problem, e' = .yaml problem := by
      unfold rootNode at hroot
      split at hroot
      · cases hroot
      · cases htext : Yaml.Node.ofText source with
        | ok node =>
          rw [htext] at hroot
          cases hroot
        | error problem =>
          rw [htext] at hroot
          cases hroot
          exact ⟨problem, rfl⟩
    obtain ⟨problem, rfl⟩ := hyaml
    constructor
    · intro h
      cases h
      exact .inl ⟨problem, rfl, rfl⟩
    · rintro (⟨problem', h, rfl⟩ | ⟨node, h, -⟩)
      · cases h
        rfl
      · cases h
  | ok node =>
    have hsections : sections path node = .error e ↔
        HasNoSections node ∧ e = .definition (.topLevel path node.toValue.kind.name) := by
      unfold HasNoSections
      cases node <;> simp [sections, eq_comm]
    refine hsections.trans ⟨fun h => .inr ⟨node, rfl, h⟩, ?_⟩
    rintro (⟨problem, h, -⟩ | ⟨node', h, hnode⟩)
    · cases h
    · cases h
      exact hnode

/-- What a text without sections is refused with, a corpus of any strictness refuses it with; from
the sections on it refuses only what a switch is on for. -/
theorem error_of_parse {corpus : Corpus} {path source : String} {s : σ} {e : Error}
    (h : ((parse corpus path source).run s).result = .error e) :
    entriesOf path source = .error e ∨ corpus.RefusesToRead e := by
  cases hentries : entriesOf path source with
  | error e' =>
    rw [run_parse_of_error hentries] at h
    cases h
    exact .inl rfl
  | ok entries =>
    rw [run_parse_of_ok hentries] at h
    exact .inr (raises_ofEntries corpus path entries s e h)

/-! ## Filters -/

variable {snapshot : Snapshot}

theorem raises_content {kind : Error → Prop} {doc : Document} :
    Raises kind (doc.content snapshot) := by
  rintro (_ | content) e h
  · rw [Document.run_content_none] at h
    cases h
  · cases h

theorem raises_evaluate (doc : Document) (e : Expr) :
    Raises Error.OfDocument (e.evaluate (doc.scope snapshot)) :=
  Document.evaluate_composable (composable_raises id) raises_content e

theorem raises_field (filter : FieldFilter) (doc : Document) :
    Raises snapshot.corpus.RefusesFields (filter.check snapshot doc) := by
  unfold FieldFilter.check
  cases filter.compiled with
  | error e =>
    exact raises_unless (⟨·, .compile e⟩) ((Raises.report _).bind fun _ => .pure _)
  | ok expr =>
    have hcheck : Raises Error.OfDocument (expr.check (doc.scope snapshot)) :=
      (raises_evaluate doc expr).bind fun _ => .pure _
    refine hcheck.attempt_bind (fun passed => .pure _) fun e he => ?_
    exact raises_unless (⟨·, he.ofFields⟩) ((Raises.report _).bind fun _ => .pure _)

theorem raises_check (filter : Filter) (doc : Document) :
    Raises snapshot.corpus.RefusesFields (filter.check snapshot doc) :=
  Filter.check_induction doc
    (P := fun check => Raises snapshot.corpus.RefusesFields (check snapshot)) .pure .bind
    (fun filter => raises_field filter doc) filter

theorem raises_gather (filter : Filter) (files : List RelPath) :
    Raises snapshot.corpus.RefusesFields (gather snapshot filter files : Job σ _) := by
  induction files with
  | nil => exact .pure _
  | cons file files ih =>
    exact ((raises_check filter _).aside none).bind fun _ => ih.bind fun _ => .pure _

/-! ## Cells -/

theorem raises_valueOrProblem (definition : Definition) (doc : Document) (column : String) :
    Raises snapshot.corpus.RefusesFields (definition.valueOrProblem snapshot doc column) := by
  intro content e he
  cases hvalue : ((definition.value snapshot doc column).run content).result with
  | ok value =>
    rw [run_valueOrProblem_of_ok hvalue] at he
    cases he
  | error e' =>
    rw [run_valueOrProblem_of_error hvalue] at he
    dsimp only at he
    split at he
    · next hstrict =>
      cases he
      exact ⟨hstrict, .cell column doc.path e'⟩
    · cases he

theorem raises_values (definition : Definition) (doc : Document) (columns : List String) :
    Raises snapshot.corpus.RefusesFields (definition.values snapshot doc columns) := by
  induction columns with
  | nil => exact .pure _
  | cons column columns ih =>
    rw [values_cons]
    exact (raises_valueOrProblem definition doc column).bind fun _ => ih.bind fun _ => .pure _

theorem raises_rowsOf (definition : Definition) (columns : List String)
    (documents : List OpenDocument) :
    Raises snapshot.corpus.RefusesFields
      (definition.rowsOf snapshot columns documents : Job σ _) := by
  induction documents with
  | nil => exact .pure _
  | cons opened rest ih =>
    rw [rowsOf_cons]
    refine Raises.bind ?_ fun _ => ih.bind fun _ => .pure _
    exact ((raises_values definition opened.document columns).aside _).bind fun _ => .pure _

/-! ## Rows -/

theorem raises_sortColumns (corpus : Corpus) (definition : Definition) (view : String)
    (entries : List SortEntry) :
    Raises corpus.RefusesToShow (definition.sortColumns corpus view entries : Job σ _) := by
  induction entries with
  | nil => exact .pure _
  | cons entry entries ih =>
    rw [sortColumns]
    split
    · exact ih.bind fun _ => .pure _
    · exact raises_unless (.sort · _ _ _) ((Raises.report _).bind fun _ => ih)

theorem raises_sortPlan (corpus : Corpus) (view : View) (layout : Layout)
    (sorts : List SortColumn) :
    Raises corpus.RefusesToShow (sortPlan corpus view layout sorts : Job σ _) :=
  sortPlan_induction (P := fun job => Raises _ job) .pure .bind (.report _) (fun _ => .report _)
    layout sorts

variable (snapshot) in
theorem raises_rows (definition : Definition) (view : View) :
    Raises snapshot.corpus.RefusesToShow (definition.rows snapshot view : Job σ _) := by
  rw [rows_eq]
  refine ((raises_gather _ _).mono .fields).bind fun documents => ?_
  refine (raises_sortColumns _ _ _ _).bind fun sorts => ?_
  refine ((raises_rowsOf _ _ _).mono .fields).bind fun values => ?_
  refine (Raises.report _).bind fun _ => ?_
  exact (raises_sortPlan _ _ _ _).bind fun _ => .pure _

/-! ## Materialization -/

variable {definition : Definition} {corpus : Corpus} {around : Surroundings} {view : View}

/-- A call is answered from the cache, or the view is computed. -/
theorem hit_or_miss (definition : Definition) (corpus : Corpus) (around : Surroundings)
    (view : View) (force : Bool) (desk : Desk) :
    (force = false ∧ ∃ sheet,
        (desk.cache.get around.ttl around.now (definition.cacheKey corpus view)).1 = some sheet) ∨
      (force = true ∨
        (desk.cache.get around.ttl around.now (definition.cacheKey corpus view)).1 = none) := by
  cases force with
  | true => exact .inr (.inl rfl)
  | false =>
    cases hfound : (desk.cache.get around.ttl around.now (definition.cacheKey corpus view)).1 with
    | none => exact .inr (.inr rfl)
    | some sheet => exact .inl ⟨rfl, sheet, rfl⟩

/-- A call fails because there is no such view, because the files cannot be listed, or because the
corpus refuses to show something. -/
theorem error_of_materialize {name : String} {force : Bool} {desk : Desk} {e : Error}
    (h : ((definition.materialize corpus around name force).run desk).result = .error e) :
    definition.view name = .error e ∨
      (∃ fault, Index.ofDisk around.disk corpus.root = .error fault ∧ e = .io fault) ∨
      corpus.RefusesToShow e := by
  cases hview : definition.view name with
  | error e' =>
    rw [run_materialize_of_unknown hview] at h
    cases h
    exact .inl rfl
  | ok view =>
    rcases hit_or_miss definition corpus around view force desk with ⟨rfl, sheet, hhit⟩ | hmiss
    · rw [run_materialize_of_hit hview hhit] at h
      cases h
    · cases hwalk : Index.ofDisk around.disk corpus.root with
      | error fault =>
        rw [result_materialize_of_fault hview hmiss hwalk] at h
        cases h
        exact .inr (.inl ⟨fault, rfl, rfl⟩)
      | ok index =>
        rw [result_materialize_of_miss hview hmiss hwalk] at h
        cases hrows : ((definition.rowsFrom corpus around view index).run desk).result with
        | ok rows =>
          rw [hrows] at h
          cases h
        | error e' =>
          rw [hrows] at h
          cases h
          exact .inr (.inr (raises_rows ⟨corpus, around.disk, index⟩ definition view desk e hrows))

/-! ## Switches -/

theorem not_ofFields_of_view {name : String} {e : Error} (h : definition.view name = .error e) :
    ¬e.OfFields := by
  rw [(view_error_iff.mp h).1]
  nofun

theorem not_ofFields_of_entries {path source : String} {e : Error}
    (h : entriesOf path source = .error e) : ¬e.OfFields := by
  rcases entriesOf_error_iff.mp h with ⟨problem, -, rfl⟩ | ⟨node, -, -, rfl⟩ <;> nofun

/-- If both switches are off, only a text without sections is refused. -/
theorem parse_error_iff {path source : String} {s : σ} {e : Error}
    (hfields : corpus.strictFields = false) (hdefinitions : corpus.strictDefinitions = false) :
    ((parse corpus path source).run s).result = .error e ↔ entriesOf path source = .error e := by
  constructor
  · intro h
    rcases error_of_parse h with h | h
    · exact h
    · cases h with
      | formula strict => cases hfields.symm.trans strict
      | shape strict => cases hdefinitions.symm.trans strict
  · intro h
    rw [run_parse_of_error h]

/-- If both switches are off, a call fails only for want of the view or of the files. -/
theorem materialize_error_iff {name : String} {force : Bool} {desk : Desk} {e : Error}
    (hfields : corpus.strictFields = false) (hdefinitions : corpus.strictDefinitions = false) :
    ((definition.materialize corpus around name force).run desk).result = .error e ↔
      definition.view name = .error e ∨
        ∃ view fault, definition.view name = .ok view ∧
          (force = true ∨
            (desk.cache.get around.ttl around.now (definition.cacheKey corpus view)).1 = none) ∧
          Index.ofDisk around.disk corpus.root = .error fault ∧ e = .io fault := by
  constructor
  · intro h
    cases hview : definition.view name with
    | error e' =>
      rw [run_materialize_of_unknown hview] at h
      cases h
      exact .inl rfl
    | ok view =>
      rcases hit_or_miss definition corpus around view force desk with ⟨rfl, sheet, hhit⟩ | hmiss
      · rw [run_materialize_of_hit hview hhit] at h
        cases h
      · rcases error_of_materialize h with h | ⟨fault, hwalk, rfl⟩ | h
        · cases hview.symm.trans h
        · exact .inr ⟨view, fault, rfl, hmiss, hwalk, rfl⟩
        · cases h with
          | fields h => cases hfields.symm.trans h.strict
          | sort strict => cases hdefinitions.symm.trans strict
  · rintro (h | ⟨view, fault, hview, hmiss, hwalk, rfl⟩)
    · rw [run_materialize_of_unknown h]
    · exact result_materialize_of_fault hview hmiss hwalk

/-- Each switch holds back its errors, whatever the other one says. With fields not strict, neither
an expression, a property nor a cell makes reading, filtering or a call fail. With definitions not
strict, no call fails for a sort entry, and a text is malformed only at its top. With neither, the
errors that are left are listed. -/
theorem switches_confine_errors (corpus : Corpus) :
    (corpus.strictFields = false →
      (∀ (path source : String) (s : σ) (e : Error),
        ((parse corpus path source).run s).result = .error e → ¬e.OfFields) ∧
      (∀ (disk : Disk) (index : Index) (doc : Document) (filter : Filter)
        (content : Option Content), ∃ passed,
          ((filter.check ⟨corpus, disk, index⟩ doc).run content).result = .ok passed) ∧
      ∀ (definition : Definition) (around : Surroundings) (name : String) (force : Bool)
        (desk : Desk) (e : Error),
        ((definition.materialize corpus around name force).run desk).result = .error e →
          ¬e.OfFields) ∧
    (corpus.strictDefinitions = false →
      (∀ (definition : Definition) (around : Surroundings) (name : String) (force : Bool)
        (desk : Desk) (property direction view : String),
        ((definition.materialize corpus around name force).run desk).result ≠
          .error (.sort property direction view)) ∧
      ∀ (path source : String) (s : σ) (problem : ShapeProblem),
        ((parse corpus path source).run s).result = .error (.definition problem) →
          ∃ node, rootNode source = .ok node ∧ HasNoSections node ∧
            problem = .topLevel path node.toValue.kind.name) ∧
    (corpus.strictFields = false → corpus.strictDefinitions = false →
      (∀ (path source : String) (s : σ) (e : Error),
        ((parse corpus path source).run s).result = .error e ↔
          (∃ problem, rootNode source = .error (.yaml problem) ∧ e = .yaml problem) ∨
          ∃ node, rootNode source = .ok node ∧ HasNoSections node ∧
            e = .definition (.topLevel path node.toValue.kind.name)) ∧
      ∀ (definition : Definition) (around : Surroundings) (name : String) (force : Bool)
        (desk : Desk) (e : Error),
        ((definition.materialize corpus around name force).run desk).result = .error e ↔
          (e = .notFound .view name ∧ ∀ view ∈ definition.views, view.name ≠ name) ∨
          ∃ view fault, definition.view name = .ok view ∧
            (force = true ∨
              (desk.cache.get around.ttl around.now (definition.cacheKey corpus view)).1 = none) ∧
            Index.ofDisk around.disk corpus.root = .error fault ∧ e = .io fault) := by
  refine ⟨fun hfields => ⟨?_, ?_, ?_⟩, fun hdefinitions => ⟨?_, ?_⟩,
    fun hfields hdefinitions => ⟨?_, ?_⟩⟩
  · intro path source s e h
    rcases error_of_parse h with h | h
    · exact not_ofFields_of_entries h
    · cases h with
      | formula strict => cases hfields.symm.trans strict
      | shape => nofun
  · intro disk index doc filter content
    have hraises : Raises corpus.RefusesFields (filter.check ⟨corpus, disk, index⟩ doc) :=
      raises_check filter doc
    exact hraises.succeeds (fun e h => nomatch hfields.symm.trans h.strict) content
  · intro definition around name force desk e h
    rcases error_of_materialize h with h | ⟨fault, -, rfl⟩ | h
    · exact not_ofFields_of_view h
    · nofun
    · cases h with
      | fields h => cases hfields.symm.trans h.strict
      | sort => nofun
  · intro definition around name force desk property direction view h
    rcases error_of_materialize h with h | ⟨fault, -, h⟩ | h
    · cases (view_error_iff.mp h).1
    · cases h
    · cases h with
      | fields h => cases h.ofFields
      | sort strict => cases hdefinitions.symm.trans strict
  · intro path source s problem h
    rcases error_of_parse h with h | h
    · rcases entriesOf_error_iff.mp h with ⟨problem', -, h⟩ | ⟨node, hroot, hnode, h⟩
      · cases h
      · cases h
        exact ⟨node, hroot, hnode, rfl⟩
    · cases h with
      | shape strict => cases hdefinitions.symm.trans strict
  · intro path source s e
    rw [parse_error_iff hfields hdefinitions, entriesOf_error_iff]
  · intro definition around name force desk e
    rw [materialize_error_iff hfields hdefinitions, view_error_iff]

/-- A view whose filter is no expression and whose sort entry is of no use. -/
def brokenView : View where
  name := "v"
  kind := .table
  filter := .field (.ofSource "price >")
  order := ["file.name", "formula.none"]
  sorts := [⟨"price", "UP"⟩]

/-- The definition that holds `brokenView`. -/
def brokenDefinition : Definition where
  path := "v.base"
  filter := .trivial
  formulas := []
  columns := []
  views := [brokenView]

/-- Such a view is shown all the same. -/
theorem switches_confine_errors_of_broken :
    noteCorpus.strictFields = false ∧ noteCorpus.strictDefinitions = false ∧
      ∃ sheet, ((brokenDefinition.materialize noteCorpus ⟨noteDisk, 0, fun _ => 60⟩ "v" false).run
        ⟨⟨[]⟩, .empty, 0⟩).result = .ok sheet := by
  have hcalls := ((switches_confine_errors (σ := Unit) noteCorpus).2.2 rfl rfl).2
  refine ⟨rfl, rfl, ?_⟩
  cases hresult : ((brokenDefinition.materialize noteCorpus ⟨noteDisk, 0, fun _ => 60⟩ "v"
      false).run ⟨⟨[]⟩, .empty, 0⟩).result with
  | ok sheet => exact ⟨sheet, rfl⟩
  | error e =>
    rcases (hcalls _ _ _ _ _ e).mp hresult with ⟨-, hnone⟩ | ⟨view, fault, -, -, hwalk, -⟩
    · exact absurd rfl (hnone brokenView List.mem_cons_self)
    · cases ofDisk_noteDisk.symm.trans hwalk

end Definition

end CorpusQuery
