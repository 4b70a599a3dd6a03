import CorpusQuery.Definition.Parse
import CorpusQuery.Proofs.Job.Runs

/-!
# Reading definitions step by step

The reader of a definition asks a corpus how strict it is in two places only: where a part has the
wrong shape, and where a formula does not compile. Everything else is made of these two steps, so a
property that they have and that goes over from step to step holds of the whole reading
(`Stepwise.ofEntries`).
-/

namespace CorpusQuery

open Job

variable {σ : Type}

/-- Refuses a malformed part of a definition, or warns about it under a title. -/
def Corpus.refuse (corpus : Corpus) (title : String) (problem : ShapeProblem) : Job σ Unit :=
  if corpus.strictDefinitions then throw (.definition problem)
  else corpus.notify .warning title problem.message

namespace Definition

/-! ## Texts and sections -/

/-- The sections in the text of the definition at `path`. -/
def entriesOf (path source : String) : Except Error (List (Yaml.Node × Yaml.Node)) :=
  (rootNode source).bind (sections path)

/-- The definition with the given sections. -/
def ofEntries (corpus : Corpus) (path : String) (entries : List (Yaml.Node × Yaml.Node)) :
    Job σ Definition := do
  let filter ← readSection entries "filters" .trivial (Filter.ofNode corpus)
  let formulas ← readSection entries "formulas" [] (formulasSection corpus)
  let columns ← readSection entries "properties" [] (columnsSection corpus)
  let views ← readSection entries "views" [] (viewsSection corpus)
  Job.log .debug "parsed definition"
  pure { path, filter, formulas, columns, views }

/-- Only the sections depend on how strict the corpus is. -/
theorem parse_eq (corpus : Corpus) (path source : String) :
    (parse corpus path source : Job σ Definition) =
      (Job.ofExcept (entriesOf path source) >>= ofEntries corpus path) := by
  unfold parse entriesOf
  cases rootNode source with
  | error e => rfl
  | ok root => rfl

theorem run_parse_of_ok {path source : String} {entries : List (Yaml.Node × Yaml.Node)}
    (h : entriesOf path source = .ok entries) (corpus : Corpus) (s : σ) :
    (parse corpus path source).run s = (ofEntries corpus path entries).run s := by
  rw [parse_eq, h]
  exact congrArg (Job.run · s) (pure_bind entries (ofEntries corpus path))

theorem run_parse_of_error {path source : String} {e : Error}
    (h : entriesOf path source = .error e) (corpus : Corpus) (s : σ) :
    (parse corpus path source).run s = ⟨.error e, [], s⟩ := by
  rw [parse_eq, h]
  rfl

/-! ## Steps -/

/-- The layout of a view that is unknown is refused, and else taken for a table. -/
theorem readKind_unknown {corpus : Corpus} {view : String} {node : Yaml.Node}
    (h : node.string?.bind ViewKind.ofName? = none) :
    (View.readKind corpus view (some node) : Job σ ViewKind) = (do
      corpus.refuse s!"view {view} is shown as a table" (.viewKind node.describe)
      pure .table) := by
  unfold View.readKind Corpus.refuse
  simp only [h]
  split <;> rfl

/-- A property of readings, as they are in each corpus, that the two steps which ask how strict the
corpus is have, and that goes over from step to step. -/
structure Stepwise (P : ∀ {α : Type}, (Corpus → Job σ α) → Prop) : Prop where
  pure : ∀ {α : Type} (a : α), P fun _ => (Pure.pure a : Job σ α)
  log : ∀ level text, P fun _ => (Job.log level text : Job σ Unit)
  refuse : ∀ title problem, P fun corpus => (corpus.refuse title problem : Job σ Unit)
  formula : ∀ name source, P fun corpus => (readFormula corpus name source : Job σ Formula)
  bind : ∀ {α β : Type} {read : Corpus → Job σ α} {next : α → Corpus → Job σ β},
    P read → (∀ a, P (next a)) → P fun corpus => read corpus >>= fun a => next a corpus

namespace Stepwise

variable {P : ∀ {α : Type}, (Corpus → Job σ α) → Prop}

theorem reject (hP : Stepwise P) (problem : ShapeProblem) :
    P fun corpus => corpus.reject problem := hP.refuse "bad base definition" problem

theorem malformed (hP : Stepwise P) (problem : ShapeProblem) :
    P fun corpus => Filter.malformed corpus problem :=
  hP.bind (hP.reject problem) fun _ => hP.pure _

/-! ## Filters -/

theorem filter (hP : Stepwise P) (node : Yaml.Node) :
    P fun corpus => Filter.ofNode corpus node := by
  refine Filter.ofNode.induct
    (fun node => P fun corpus => Filter.ofNode corpus node)
    (fun nodes => P fun corpus => Filter.ofNodes corpus nodes)
    ?null ?source ?operator ?unknown ?single ?entries ?other ?nil ?cons node
  case null => exact hP.pure _
  case source => exact fun source => hP.pure _
  case operator =>
    intro key items operator hoperator ih
    simp only [Filter.ofNode, hoperator]
    exact hP.bind ih fun _ => hP.pure _
  case unknown =>
    intro key items hoperator
    simp only [Filter.ofNode, hoperator]
    exact hP.malformed _
  case single =>
    intro key value hvalue
    simp only [Filter.ofNode.eq_4 _ _ _ hvalue]
    exact hP.malformed _
  case entries =>
    intro entries hlist hsingle
    simp only [Filter.ofNode.eq_5 _ _ hlist hsingle]
    exact hP.malformed _
  case other =>
    intro node hnull hstr hlist hsingle hmapping
    simp only [Filter.ofNode.eq_6 _ _ hnull hstr hlist hsingle hmapping]
    exact hP.malformed _
  case nil => exact hP.pure _
  case cons => exact fun item items ih ihs => hP.bind ih fun _ => hP.bind ihs fun _ => hP.pure _

/-! ## Formulas and columns -/

theorem formulas (hP : Stepwise P) (entries : List (Yaml.Node × Yaml.Node))
    (found : Dictionary Formula) : P fun corpus => readFormulas corpus found entries := by
  induction entries generalizing found with
  | nil => exact hP.pure _
  | cons entry entries ih => exact hP.bind (hP.formula _ _) fun formula => ih _

theorem formulasSection (hP : Stepwise P) (node : Yaml.Node) :
    P fun corpus => Definition.formulasSection corpus node := by
  unfold Definition.formulasSection
  split
  · exact hP.formulas _ _
  · exact hP.bind (hP.reject _) fun _ => hP.pure _

theorem columnsSection (hP : Stepwise P) (node : Yaml.Node) :
    P fun corpus => Definition.columnsSection corpus node := by
  simp only [Definition.columnsSection]
  split
  · exact hP.pure _
  · exact hP.bind (hP.reject _) fun _ => hP.pure _

/-! ## Views -/

theorem sortEntries (hP : Stepwise P) (view : String) (items : List Yaml.Node) :
    P fun corpus => SortEntry.ofNodes corpus view items := by
  induction items with
  | nil => exact hP.pure _
  | cons item items ih =>
    simp only [SortEntry.ofNodes]
    split
    · exact hP.bind ih fun _ => hP.pure _
    · exact hP.bind (hP.reject _) fun _ => ih

theorem kind (hP : Stepwise P) (view : String) (node : Option Yaml.Node) :
    P fun corpus => View.readKind corpus view node := by
  cases node with
  | none => exact hP.pure _
  | some node =>
    cases hkind : node.string?.bind ViewKind.ofName? with
    | none =>
      simp only [readKind_unknown hkind]
      exact hP.bind (hP.refuse _ _) fun _ => hP.pure _
    | some kind =>
      simp only [View.readKind, hkind]
      exact hP.pure _

theorem viewFilter (hP : Stepwise P) (node : Option Yaml.Node) :
    P fun corpus => View.readFilter corpus node := by
  cases node with
  | none => exact hP.pure _
  | some node => exact hP.filter node

theorem order (hP : Stepwise P) (view : String) (node : Option Yaml.Node) :
    P fun corpus => View.readOrder corpus view node := by
  unfold View.readOrder
  split
  · exact hP.pure _
  · exact hP.pure _
  · exact hP.pure _
  · exact hP.bind (hP.reject _) fun _ => hP.pure _

theorem sorts (hP : Stepwise P) (view : String) (node : Option Yaml.Node) :
    P fun corpus => View.readSorts corpus view node := by
  unfold View.readSorts
  split
  · exact hP.pure _
  · exact hP.pure _
  · exact hP.sortEntries _ _
  · exact hP.bind (hP.reject _) fun _ => hP.pure _

theorem view (hP : Stepwise P) (position : Nat) (node : Yaml.Node) :
    P fun corpus => View.ofNode corpus position node := by
  unfold View.ofNode
  split
  · split
    · exact hP.bind (hP.reject _) fun _ => hP.pure _
    · refine hP.bind (hP.kind _ _) fun kind => ?_
      refine hP.bind (hP.viewFilter _) fun filter => ?_
      refine hP.bind (hP.order _ _) fun order => ?_
      exact hP.bind (hP.sorts _ _) fun sorts => hP.pure _
  · exact hP.bind (hP.reject _) fun _ => hP.pure _

theorem views (hP : Stepwise P) (position : Nat) (items : List Yaml.Node) :
    P fun corpus => View.ofNodes corpus position items := by
  induction items generalizing position with
  | nil => exact hP.pure _
  | cons item items ih =>
    exact hP.bind (hP.view _ _) fun view => hP.bind (ih _) fun views => hP.pure _

theorem viewsSection (hP : Stepwise P) (node : Yaml.Node) :
    P fun corpus => Definition.viewsSection corpus node := by
  unfold Definition.viewsSection
  split
  · exact hP.pure _
  · exact hP.views _ _
  · exact hP.bind (hP.reject _) fun _ => hP.pure _

/-! ## Whole definitions -/

theorem readSection {α : Type} (hP : Stepwise P) {read : Corpus → Yaml.Node → Job σ α}
    (h : ∀ node, P fun corpus => read corpus node) (entries : List (Yaml.Node × Yaml.Node))
    (name : String) (default : α) :
    P fun corpus => Definition.readSection entries name default (read corpus) := by
  unfold Definition.readSection
  split
  · exact h _
  · exact hP.pure _

theorem ofEntries (hP : Stepwise P) (path : String) (entries : List (Yaml.Node × Yaml.Node)) :
    P fun corpus => Definition.ofEntries corpus path entries := by
  refine hP.bind (hP.readSection hP.filter _ _ _) fun filter => ?_
  refine hP.bind (hP.readSection hP.formulasSection _ _ _) fun formulas => ?_
  refine hP.bind (hP.readSection hP.columnsSection _ _ _) fun columns => ?_
  refine hP.bind (hP.readSection hP.viewsSection _ _ _) fun views => ?_
  exact hP.bind (hP.log _ _) fun _ => hP.pure _

end Stepwise

/-! ## The state -/

theorem detached_refuse (corpus : Corpus) (title : String) (problem : ShapeProblem) :
    Detached (corpus.refuse title problem : Job σ Unit) := by
  unfold Corpus.refuse
  split
  · exact .throw _
  · exact .report _

theorem detached_formula (corpus : Corpus) (name source : String) :
    Detached (readFormula corpus name source : Job σ Formula) := by
  unfold readFormula
  split
  · exact .pure _
  · split
    · exact .throw _
    · exact (Detached.report _).bind fun _ => .pure _

theorem stepwise_detached :
    Stepwise (σ := σ) fun read => ∀ corpus, Detached (read corpus) where
  pure a _ := .pure a
  log _ _ _ := .report _
  refuse title problem corpus := detached_refuse corpus title problem
  formula name source corpus := detached_formula corpus name source
  bind h hnext corpus := (h corpus).bind fun a => hnext a corpus

/-- Reading a definition does nothing to the state. -/
theorem detached_parse (corpus : Corpus) (path source : String) :
    Detached (parse corpus path source : Job σ Definition) := by
  cases hentries : entriesOf path source with
  | error e => exact ⟨_, _, run_parse_of_error hentries corpus⟩
  | ok entries =>
    rw [parse_eq, hentries]
    exact stepwise_detached.ofEntries path entries corpus

end Definition

end CorpusQuery
