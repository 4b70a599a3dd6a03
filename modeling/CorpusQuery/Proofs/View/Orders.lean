import CorpusQuery.Proofs.Job.SideBySide
import CorpusQuery.Proofs.View.Messages

/-!
# Documents in any order

The documents of a view are checked side by side, and then their cells are computed side by side,
each from the content that its check has left. In a corpus that is not strict about fields every
check and every row of cells comes to an end, and none of them reports the notice about the values
that are missing: that is put together from the rows when all of them are there. So neither the
table of a view nor that notice depends on the order in which the work is done, and the other
messages are the same ones (`materialize_in_any_order`).
-/

namespace CorpusQuery

open Job Event

namespace Message

/-- The notice about the values that could not be computed. -/
def isNotice (m : Message) : Bool := m.text == "problems during base rendering"

theorem OfReading.not_notice {corpus : Corpus} {doc : Document} {m : Message}
    (h : m.OfReading corpus doc) : m.isNotice = false := by
  cases h <;> simp [isNotice, Corpus.message, toString, ← String.toList_inj]

theorem OfCheck.not_notice {corpus : Corpus} {doc : Document} {filter : Filter} {m : Message}
    (h : m.OfCheck corpus doc filter) : m.isNotice = false := by
  cases h with
  | reading h => exact h.not_notice
  | unparsed => simp [isNotice, Corpus.message, toString, ← String.toList_inj]
  | unapplied => simp [isNotice, Corpus.message, toString, ← String.toList_inj]

end Message

/-- The orders in which the workers take turns while documents are checked, and while their cells
are computed. -/
structure Orders where
  gathering : List Nat
  computing : List Nat

namespace Definition

variable {σ : Type} {snapshot : Snapshot}

/-- If fields are not refused, tasks that refuse nothing else come to an end in any order. -/
theorem tasks_sameUpToOrder {α : Type} (order : List Nat)
    {tasks : List (Task (Option Content) α)} (hfields : snapshot.corpus.strictFields = false)
    (hraises : ∀ task ∈ tasks, Raises snapshot.corpus.RefusesFields task.job)
    (hquiet : ∀ task ∈ tasks, Quiet Message.isNotice task.job) :
    SameUpToOrder Message.isNotice (sideBySide order tasks : Job σ _)
      (tasks.mapM Task.alone) := by
  refine sideBySide_sameUpToOrder order (fun task htask => ?_) fun task htask =>
    hquiet task htask task.start
  have hsucceeds : Succeeds task.job :=
    (hraises task htask).succeeds fun e h => nomatch hfields.symm.trans h.strict
  exact hsucceeds task.start

/-! ## Documents -/

/-- The check of a file as a task, which gives the document if it passes. -/
def checkTask (snapshot : Snapshot) (filter : Filter) (file : RelPath) :
    Task (Option Content) (Option Document) where
  job := do
    let document := Document.ofPath snapshot.corpus file
    let passed ← filter.check snapshot document
    pure (if passed then some document else none)
  start := none

/-- The documents that passed, with the content that the check has left. -/
def passing (checked : List (Option Document × Option Content)) : List OpenDocument :=
  checked.filterMap fun (document, content) => document.map fun document => ⟨document, content⟩

/-- Checks the given files side by side. -/
def gatherSideBySide (order : List Nat) (snapshot : Snapshot) (filter : Filter)
    (files : List RelPath) : Job σ (List OpenDocument) := do
  let checked ← sideBySide order (files.map (checkTask snapshot filter))
  pure (passing checked)

theorem gather_eq_mapM (snapshot : Snapshot) (filter : Filter) (files : List RelPath) :
    (gather snapshot filter files : Job σ _) =
      (do
        let checked ← (files.map (checkTask snapshot filter)).mapM Task.alone
        pure (passing checked)) := by
  induction files with
  | nil => rfl
  | cons file files ih =>
    rw [gather, ih, List.map_cons, List.mapM_cons, Task.alone, checkTask, aside_bind_pure]
    simp only [bind_assoc, pure_bind]
    refine bind_congr fun done => bind_congr fun checked => ?_
    cases done.1 <;> simp [passing]

theorem gather_in_any_order (order : List Nat) (filter : Filter) (files : List RelPath)
    (hfields : snapshot.corpus.strictFields = false) :
    SameUpToOrder Message.isNotice (gatherSideBySide order snapshot filter files : Job σ _)
      (gather snapshot filter files) := by
  rw [gather_eq_mapM]
  refine (tasks_sameUpToOrder order hfields ?_ ?_).bind fun checked => .refl _
  · intro task htask
    obtain ⟨file, -, rfl⟩ := List.mem_map.mp htask
    exact (raises_check filter _).bind fun passed => .pure _
  · intro task htask
    obtain ⟨file, -, rfl⟩ := List.mem_map.mp htask
    have hcheck : Quiet Message.isNotice
        (filter.check snapshot (.ofPath snapshot.corpus file)) :=
      filter.reports_check.quiet Message.OfCheck.not_notice
    exact hcheck.bind fun passed => .pure _

/-! ## Cells -/

/-- The cells of a document as a task. -/
def rowTask (definition : Definition) (snapshot : Snapshot) (columns : List String)
    (opened : OpenDocument) : Task (Option Content) (List Value × List String) where
  job := definition.values snapshot opened.document columns
  start := opened.content

/-- The rows of cells, and what went wrong with any of them. -/
def table (computed : List ((List Value × List String) × Option Content)) :
    List (List Value) × List String :=
  (computed.map fun done => done.1.1, computed.flatMap fun done => done.1.2)

/-- Computes the cells of the given documents side by side. -/
def rowsOfSideBySide (order : List Nat) (definition : Definition) (snapshot : Snapshot)
    (columns : List String) (documents : List OpenDocument) :
    Job σ (List (List Value) × List String) := do
  let computed ← sideBySide order (documents.map (definition.rowTask snapshot columns))
  pure (table computed)

theorem rowsOf_eq_mapM (definition : Definition) (snapshot : Snapshot) (columns : List String)
    (documents : List OpenDocument) :
    (definition.rowsOf snapshot columns documents : Job σ _) =
      (do
        let computed ← (documents.map (definition.rowTask snapshot columns)).mapM Task.alone
        pure (table computed)) := by
  induction documents with
  | nil => rfl
  | cons opened rest ih =>
    rw [rowsOf, ih, List.map_cons, List.mapM_cons]
    simp only [bind_assoc, pure_bind]
    rfl

theorem rowsOf_in_any_order (order : List Nat) (definition : Definition) (columns : List String)
    (documents : List OpenDocument) (hfields : snapshot.corpus.strictFields = false) :
    SameUpToOrder Message.isNotice
      (definition.rowsOfSideBySide order snapshot columns documents : Job σ _)
      (definition.rowsOf snapshot columns documents) := by
  rw [rowsOf_eq_mapM]
  refine (tasks_sameUpToOrder order hfields ?_ ?_).bind fun computed => .refl _
  · intro task htask
    obtain ⟨opened, -, rfl⟩ := List.mem_map.mp htask
    exact raises_values definition opened.document columns
  · intro task htask
    obtain ⟨opened, -, rfl⟩ := List.mem_map.mp htask
    exact (reports_values definition columns).quiet Message.OfReading.not_notice

/-! ## Views -/

/-- The rows of a view, with the work on documents done side by side. -/
def rowsSideBySide (orders : Orders) (definition : Definition) (snapshot : Snapshot)
    (view : View) : Job σ (List Row) := do
  let corpus := snapshot.corpus
  let filter := definition.filter.both view.filter
  let documents ← gatherSideBySide orders.gathering snapshot filter snapshot.index.files
  let sorts ← definition.sortColumns corpus view.name view.sorts
  let columns := (Layout.ofView view sorts).columns
  let (values, problems) ←
    definition.rowsOfSideBySide orders.computing snapshot columns documents
  Job.report (problemEvents corpus problems)
  definition.arrange corpus view sorts values

theorem rows_in_any_order (orders : Orders) (definition : Definition) (view : View)
    (hfields : snapshot.corpus.strictFields = false) :
    SameUpToOrder Message.isNotice (definition.rowsSideBySide orders snapshot view : Job σ _)
      (definition.rows snapshot view) := by
  rw [rows_eq]
  refine (gather_in_any_order _ _ _ hfields).bind fun documents => ?_
  refine (SameUpToOrder.refl _).bind fun sorts => ?_
  exact (rowsOf_in_any_order _ _ _ _ hfields).bind fun values => .refl _

/-- Computes a view anew and stores it, with the work on documents done side by side. -/
def recomputeSideBySide (orders : Orders) (definition : Definition) (corpus : Corpus)
    (around : Surroundings) (view : View) : Job Desk Sheet := do
  Desk.onIndex (around.refresh corpus)
  let index := (← get).index
  let rows ← definition.rowsSideBySide orders { corpus, disk := around.disk, index } view
  definition.keep corpus around view rows

theorem recompute_in_any_order (orders : Orders) (definition : Definition) {corpus : Corpus}
    (around : Surroundings) (view : View) (hfields : corpus.strictFields = false) :
    SameUpToOrder Message.isNotice (definition.recomputeSideBySide orders corpus around view)
      (definition.recompute corpus around view) := by
  refine (SameUpToOrder.refl _).bind fun _ => (SameUpToOrder.refl _).bind fun desk => ?_
  exact (rows_in_any_order _ _ _ hfields).bind fun rows => .refl _

/-- The rows of a view by its name, as `materialize` gives them, with the work on documents done
side by side. -/
def materializeSideBySide (orders : Orders) (definition : Definition) (corpus : Corpus)
    (around : Surroundings) (name : String) (force : Bool) : Job Desk Sheet := do
  let view ← Job.ofExcept (definition.view name)
  if force then definition.recomputeSideBySide orders corpus around view
  else
    match ← Desk.onCache (around.cached? (definition.cacheKey corpus view)) with
    | some sheet =>
      Job.log .debug "view served from cache"
      pure sheet
    | none => definition.recomputeSideBySide orders corpus around view

theorem materialize_sameUpToOrder (orders : Orders) (definition : Definition) {corpus : Corpus}
    (around : Surroundings) (name : String) (force : Bool)
    (hfields : corpus.strictFields = false) :
    SameUpToOrder Message.isNotice
      (definition.materializeSideBySide orders corpus around name force)
      (definition.materialize corpus around name force) := by
  have hrecompute (view : View) := recompute_in_any_order orders definition around view hfields
  refine (SameUpToOrder.refl _).bind fun view => ?_
  cases force with
  | true => exact hrecompute view
  | false =>
    refine (SameUpToOrder.refl _).bind fun found => ?_
    cases found with
    | some sheet => exact .refl _
    | none => exact hrecompute view

/-- In a corpus that is not strict about fields, a call gives the same table, leaves the same behind
and reports the same notice of missing values, whatever the orders in which the documents are
checked and their cells computed; what else it reports is the same up to order. The orders of turns
bring about every way in which the events of the tasks can be interleaved. -/
theorem materialize_in_any_order (orders : Orders) (definition : Definition) {corpus : Corpus}
    (around : Surroundings) (name : String) (force : Bool) (desk : Desk)
    (hfields : corpus.strictFields = false) :
    let inOrder := (definition.materializeSideBySide orders corpus around name force).run desk
    let expected := (definition.materialize corpus around name force).run desk
    inOrder.result = expected.result ∧ inOrder.state = expected.state ∧
      (messages inOrder.events).filter Message.isNotice =
        (messages expected.events).filter Message.isNotice ∧
      ((messages inOrder.events).filter fun m => !m.isNotice).Perm
        ((messages expected.events).filter fun m => !m.isNotice) ∧
      ∀ {α : Type} (tasks : List (Task (Option Content) α)) (merged : List Event),
        Interleaving (tasks.map fun task => task.outcome.events) merged →
          ∃ order, ∀ s : Desk, ((sideBySide order tasks).run s).events = merged := by
  intro inOrder expected
  have hsame : Outcome.SameUpToOrder Message.isNotice inOrder expected :=
    materialize_sameUpToOrder orders definition around name force hfields desk
  exact ⟨hsame.result_eq, hsame.state_eq, hsame.complaints_eq, hsame.messages_perm.filter _,
    fun tasks merged => exists_sideBySide⟩

/-- A view whose filter cannot be applied to any document, and with a column that has no value. -/
def clashView : View where
  name := "v"
  kind := .table
  filter := .field (.ofSource "file.name > 1")
  order := ["file.name", "formula.none"]
  sorts := []

/-- The definition that holds `clashView`. -/
def clashDefinition : Definition where
  path := "v.base"
  filter := .trivial
  formulas := []
  columns := []
  views := [clashView]

/-- The second note can be checked, and be reported, before the first. -/
theorem materialize_in_any_order_of_clash :
    let around : Surroundings := ⟨noteDisk, 0, fun _ => 60⟩
    let desk : Desk := ⟨⟨[]⟩, .empty, 0⟩
    let orders : Orders := ⟨[1, 1, 1], []⟩
    let snapshot : Snapshot := ⟨noteCorpus, noteDisk, ⟨[["a.md"], ["b.md"]]⟩⟩
    let files := snapshot.index.files
    let gathered := (gatherSideBySide orders.gathering snapshot clashView.filter files).run ()
    let inTurn := (gather snapshot clashView.filter files).run ()
    noteCorpus.strictFields = false ∧
      (messages gathered.events).map Message.text =
        ["could not apply filter `file.name > 1` to b.md",
          "could not apply filter `file.name > 1` to a.md"] ∧
      (messages inTurn.events).map Message.text =
        ["could not apply filter `file.name > 1` to a.md",
          "could not apply filter `file.name > 1` to b.md"] ∧
      ((clashDefinition.materializeSideBySide orders noteCorpus around "v" true).run desk).result =
        ((clashDefinition.materialize noteCorpus around "v" true).run desk).result := by
  refine ⟨rfl, by decide +kernel, by decide +kernel, ?_⟩
  exact (materialize_in_any_order _ clashDefinition _ "v" true _ rfl).1

end Definition

end CorpusQuery
