import CorpusQuery.Proofs.View.CellEvents
import CorpusQuery.Proofs.View.StableSort

/-!
# Values that are missing

In a corpus that is not strict about fields a value that cannot be computed costs no row: the cell
holds the empty text, which it is also sorted by. What went wrong is put together for the whole
view, document by document and column by column, and told in one notice
(`materialize_lists_failures`). A notice that cannot list everything is short, and the log has all.
-/

namespace CorpusQuery

open Job Document Event

/-! ## The order of rows -/

/-- What the rows are sorted by: the given columns, or, if there are none, the first one shown. -/
def Layout.plan (layout : Layout) (sorts : List SortColumn) : List SortStep :=
  let plan := sorts.filterMap fun sort =>
    (layout.position? sort.column).map fun position => { position, direction := sort.direction }
  if plan.isEmpty then (layout.shown.take 1).map fun position => { position, direction := .ascending }
  else plan

namespace Definition

variable {σ : Type} {definition : Definition} {snapshot : Snapshot} {doc : Document} {view : View}

theorem yields_sortPlan (corpus : Corpus) (view : View) (layout : Layout)
    (sorts : List SortColumn) :
    Yields isOfCells (layout.plan sorts) []
      (sortPlan corpus view layout sorts : Job σ (List SortStep)) := by
  refine (avoids_sortPlan corpus view layout sorts).yields fun s => ?_
  unfold sortPlan Layout.plan
  dsimp only
  generalize (sorts.filterMap fun sort => (layout.position? sort.column).map fun position =>
    (⟨position, sort.direction⟩ : SortStep)) = plan
  cases plan with
  | cons step plan => rfl
  | nil => cases layout.shown <;> cases view.sorts <;> rfl

theorem yields_sortColumns {corpus : Corpus} {entries : List SortEntry}
    (hentries : corpus.strictDefinitions = true →
      ∀ entry ∈ entries, (definition.sortColumn? entry).isSome = true) (name : String) :
    Yields isOfCells (entries.filterMap definition.sortColumn?) []
      (definition.sortColumns corpus name entries : Job σ (List SortColumn)) := by
  induction entries with
  | nil => exact .pure _
  | cons entry entries ih =>
    have ih := ih fun hstrict other hother => hentries hstrict other (List.mem_cons_of_mem _ hother)
    rw [sortColumns]
    cases hsort : definition.sortColumn? entry with
    | some sort =>
      rw [List.filterMap_cons_some hsort]
      exact ih.bind_none (.pure _)
    | none =>
      have hlenient : corpus.strictDefinitions = false := by
        refine Bool.eq_false_of_not_eq_true fun hstrict => ?_
        have husable := hentries hstrict entry List.mem_cons_self
        rw [hsort] at husable
        cases husable
      rw [List.filterMap_cons_none hsort]
      simp only [hlenient, Bool.false_eq_true, if_false]
      have hdropped : Yields isOfCells () [] (corpus.notify .warning "sort entry dropped"
          (Error.sortMessage entry.property entry.direction name) : Job σ Unit) :=
        (avoids_notify (Message.OfOrder.dropped _).not_isOfCells).yields fun _ => rfl
      exact hdropped.none_bind ih

/-! ## Failures -/

/-- What is said of the value of a column for a document if it cannot be computed. -/
def failure? (definition : Definition) (snapshot : Snapshot) (doc : Document) (column : String) :
    Option String :=
  match ((definition.value snapshot doc column).run none).result with
  | .ok _ => none
  | .error e => some (missingValue column doc e)

/-- What is said of the values that cannot be computed, document by document and column by
column. -/
def failures (definition : Definition) (snapshot : Snapshot) (columns : List String)
    (docs : List Document) : List String :=
  docs.flatMap fun doc => columns.filterMap (definition.failure? snapshot doc)

theorem isOfCells_missingValue (column : String) (doc : Document) (e : Error) (level : LogLevel) :
    isOfCells (.log level (missingValue column doc e)) = true := by
  have hbegins : "could not find value".toList <+: (missingValue column doc e).toList := by
    unfold missingValue
    generalize e.message = reason
    simp [toString]
  rw [isOfCells, Event.text, decide_eq_true hbegins, Bool.or_true]

theorem isOfCells_failure {line : String} {columns : List String} {docs : List Document}
    (h : line ∈ definition.failures snapshot columns docs) (level : LogLevel) :
    isOfCells (.log level line) = true := by
  obtain ⟨doc, -, hdoc⟩ := List.mem_flatMap.mp h
  obtain ⟨column, -, hcolumn⟩ := List.mem_filterMap.mp hdoc
  unfold failure? at hcolumn
  split at hcolumn
  · cases hcolumn
  · next e _ =>
    rw [← Option.some.inj hcolumn]
    exact isOfCells_missingValue column doc e level

theorem valueOrEmpty_of_failure {column : String}
    (h : (definition.failure? snapshot doc column).isSome = true) :
    definition.valueOrEmpty snapshot doc column = .str "" := by
  unfold failure? at h
  unfold valueOrEmpty
  cases hvalue : ((definition.value snapshot doc column).run none).result with
  | ok value =>
    rw [hvalue] at h
    cases h
  | error e => rfl

/-! ## Lenient rows -/

section

variable (hfields : snapshot.corpus.strictFields = false)

include hfields

theorem result_valueOrProblem {content : Option Content} (hcontent : IsRead snapshot doc content)
    (column : String) :
    ((definition.valueOrProblem snapshot doc column).run content).result =
      .ok (definition.valueOrEmpty snapshot doc column,
        (definition.failure? snapshot doc column).toList) := by
  rw [(settled_valueOrProblem column).result_eq hcontent]
  unfold valueOrEmpty failure?
  cases hvalue : ((definition.value snapshot doc column).run none).result with
  | ok value => rw [run_valueOrProblem_of_ok hvalue]; rfl
  | error e => rw [run_valueOrProblem_of_error hvalue, hfields]; rfl

theorem result_values {content : Option Content} (hcontent : IsRead snapshot doc content)
    (columns : List String) :
    ((definition.values snapshot doc columns).run content).result =
      .ok (columns.map (definition.valueOrEmpty snapshot doc),
        columns.filterMap (definition.failure? snapshot doc)) := by
  induction columns generalizing content with
  | nil => rfl
  | cons column columns ih =>
    have hread : IsRead snapshot doc
        ((definition.valueOrProblem snapshot doc column).run content).state :=
      (settled_valueOrProblem column).isRead hcontent
    rw [values_cons, run_bind_of_ok (result_valueOrProblem hfields hcontent column),
      run_bind_of_ok (ih hread)]
    cases h : definition.failure? snapshot doc column with
    | none => rw [List.filterMap_cons_none h]; rfl
    | some line => rw [List.filterMap_cons_some h]; rfl

variable (definition) in
theorem yields_rowsOf {documents : List OpenDocument}
    (hread : ∀ opened ∈ documents, IsRead snapshot opened.document opened.content)
    (columns : List String) :
    Yields isOfCells
      ((documents.map OpenDocument.document).map fun doc =>
          columns.map (definition.valueOrEmpty snapshot doc),
        definition.failures snapshot columns (documents.map OpenDocument.document)) []
      (definition.rowsOf snapshot columns documents : Job σ _) := by
  induction documents with
  | nil => exact .pure _
  | cons opened rest ih =>
    have ih := ih fun other hother => hread other (List.mem_cons_of_mem _ hother)
    have hrow : Yields isOfCells
        (columns.map (definition.valueOrEmpty snapshot opened.document),
          columns.filterMap (definition.failure? snapshot opened.document)) []
        (definition.rowValues snapshot columns opened : Job σ _) := by
      intro s
      rw [run_rowValues]
      exact ⟨result_values hfields (hread opened List.mem_cons_self) columns,
        avoids_values definition columns opened.content⟩
    rw [rowsOf_cons]
    exact hrow.none_bind (ih.bind_none (.pure _))

end

/-- The notice about failures, with the lines that come with it, is all about cells. -/
theorem filter_problemEvents {corpus : Corpus} {problems : List String}
    (h : ∀ line ∈ problems, isOfCells (.log .warning line) = true) :
    (problemEvents corpus problems).filter isOfCells = problemEvents corpus problems := by
  have hnotice (details : String) (useLog : Bool) :
      ∀ event ∈ (corpus.message .warning "problems during base rendering" details).events useLog,
        isOfCells event = true := by
    intro event hevent
    cases useLog with
    | true =>
      simp only [Message.events, if_true, List.mem_cons, List.not_mem_nil, or_false] at hevent
      rcases hevent with rfl | rfl <;> rfl
    | false =>
      simp only [Message.events, Bool.false_eq_true, if_false, List.mem_singleton] at hevent
      rw [hevent]
      rfl
  refine List.filter_eq_self.mpr fun event hevent => ?_
  unfold problemEvents at hevent
  split at hevent
  · cases hevent
  · split at hevent
    · exact hnotice _ _ event hevent
    · rcases List.mem_append.mp hevent with hline | hevent
      · obtain ⟨line, hmem, rfl⟩ := List.mem_map.mp hline
        exact h line hmem
      · exact hnotice _ _ event hevent

theorem yields_problemEvents (definition : Definition) (snapshot : Snapshot)
    (columns : List String) (docs : List Document) :
    Yields isOfCells () (problemEvents snapshot.corpus (definition.failures snapshot columns docs))
      (Job.report (problemEvents snapshot.corpus (definition.failures snapshot columns docs)) :
        Job σ Unit) :=
  fun _ => ⟨rfl, filter_problemEvents fun _ hline => isOfCells_failure hline .warning⟩

theorem problemEvents_of_length_eq_zero {corpus : Corpus} {problems : List String}
    (hnone : problems.length = 0) : problemEvents corpus problems = [] := by
  rw [List.length_eq_zero_iff.mp hnone]
  rfl

theorem problemEvents_of_le {corpus : Corpus} {problems : List String} (hsome : 1 ≤ problems.length)
    (hle : problems.length ≤ 50) :
    problemEvents corpus problems =
      [.log .warning "problems during base rendering",
        .message (corpus.message .warning "problems during base rendering"
          (String.intercalate "\n" problems))] := by
  have hnonempty : problems.isEmpty = false := by
    cases problems with
    | nil => cases hsome
    | cons line problems => rfl
  simp only [problemEvents, hnonempty, Bool.false_eq_true, if_false]
  exact if_pos hle

theorem problemEvents_of_lt {corpus : Corpus} {problems : List String}
    (hlt : 50 < problems.length) :
    problemEvents corpus problems =
      problems.map (.log .warning ·) ++
        [.message (corpus.message .warning "problems during base rendering"
          (String.intercalate "\n" (problems.take 50 ++ ["... see system logs"])))] := by
  have hnonempty : problems.isEmpty = false := by
    cases problems with
    | nil => cases hlt
    | cons line problems => rfl
  simp only [problemEvents, hnonempty, Bool.false_eq_true, if_false]
  exact if_neg (Nat.not_le.mpr hlt)

/-! ## Lenient views -/

/-- The cells of the given columns for a document; a missing value is the empty text. -/
def cellsOf (definition : Definition) (snapshot : Snapshot) (columns : List String)
    (doc : Document) : List Value :=
  (columns.map (definition.valueOrEmpty snapshot doc)).map Value.cell

theorem getElem?_cellsOf_of_failure {columns : List String} {position : Nat} {column : String}
    (hcolumn : columns[position]? = some column)
    (hfails : (definition.failure? snapshot doc column).isSome = true) :
    (definition.cellsOf snapshot columns doc)[position]? = some (.str "") := by
  rw [cellsOf, List.getElem?_map, List.getElem?_map, hcolumn, Option.map_some,
    valueOrEmpty_of_failure hfails]
  rfl

/-- The table of a view: the columns that are needed, for the documents that pass. -/
def cellTable (definition : Definition) (snapshot : Snapshot) (view : View)
    (sorts : List SortColumn) : List (List Value) :=
  (definition.matching snapshot view).map (definition.cellsOf snapshot (view.needed sorts))

theorem ofValues_eq_cellTable (sorts : List SortColumn) :
    Table.ofValues ((definition.matching snapshot view).map fun doc =>
      (view.needed sorts).map (definition.valueOrEmpty snapshot doc)) =
      definition.cellTable snapshot view sorts := List.map_map

/-- The rows of a view: its table in the order asked for. -/
def sortedRows (definition : Definition) (snapshot : Snapshot) (view : View)
    (sorts : List SortColumn) : List Row :=
  let layout := Layout.ofView view sorts
  let table := definition.cellTable snapshot view sorts
  (Table.sort (Table.numericColumns (view.needed sorts).length table) (layout.plan sorts)
    table).map (definition.row layout)

theorem length_sortedRows (sorts : List SortColumn) :
    (definition.sortedRows snapshot view sorts).length =
      (definition.matching snapshot view).length := by
  rw [sortedRows, List.length_map, (sort_perm _ _ _).length_eq]
  exact List.length_map _

/-- In a table a value that is missing is the empty text, and it is sorted by that: a column in
which a value is missing is no column of numbers. -/
theorem key_of_failure {sorts : List SortColumn} {doc : Document} {position : Nat} {column : String}
    (hdoc : doc ∈ definition.matching snapshot view)
    (hcolumn : (view.needed sorts)[position]? = some column)
    (hfails : (definition.failure? snapshot doc column).isSome = true) :
    Table.keyAt (Table.numericColumns (view.needed sorts).length
        (definition.cellTable snapshot view sorts)) position
      (definition.cellsOf snapshot (view.needed sorts) doc) = .text "" := by
  rw [← ofValues_eq_cellTable, cellsOf]
  have hwidth : ∀ row ∈ (definition.matching snapshot view).map fun doc =>
      (view.needed sorts).map (definition.valueOrEmpty snapshot doc),
      row.length = (view.needed sorts).length := by
    intro row hrow
    obtain ⟨other, -, rfl⟩ := List.mem_map.mp hrow
    exact List.length_map _
  have hrow := List.mem_map_of_mem (f := fun doc =>
    (view.needed sorts).map (definition.valueOrEmpty snapshot doc)) hdoc
  have hcell : ((view.needed sorts).map (definition.valueOrEmpty snapshot doc))[position]? =
      some (.str "") := by
    rw [List.getElem?_map, hcolumn, Option.map_some, valueOrEmpty_of_failure hfails]
  obtain ⟨hposition, -⟩ := List.getElem?_eq_some_iff.mp hcolumn
  rcases Table.homogeneous hwidth hposition with ⟨hnumbers, -⟩ | ⟨-, hkeys⟩
  · have hnumber := hnumbers _ (List.mem_map_of_mem (f := List.map Value.cell) hrow) (.str "")
      (by rw [List.getElem?_map, hcell]; rfl)
    rcases hnumber with ⟨i, hi⟩ | ⟨x, hx⟩
    · cases hi
    · cases hx
  · obtain ⟨value, hvalue, hkey⟩ := hkeys _ hrow
    rw [hcell] at hvalue
    cases hvalue
    exact hkey

theorem yields_arrange (corpus : Corpus) (sorts : List SortColumn) :
    Yields isOfCells (definition.sortedRows snapshot view sorts) []
      (definition.arrange corpus view sorts
        ((definition.matching snapshot view).map fun doc =>
          (view.needed sorts).map (definition.valueOrEmpty snapshot doc)) : Job σ _) := by
  unfold sortedRows arrange
  rw [← ofValues_eq_cellTable, ← Layout.columns_ofView]
  exact (yields_sortPlan _ _ _ _).bind_none (.pure _)

variable (definition view) in
theorem yields_gather (hfields : snapshot.corpus.strictFields = false) (s : σ) :
    ∃ documents : List OpenDocument,
      documents.map OpenDocument.document = definition.matching snapshot view ∧
      (∀ opened ∈ documents, IsRead snapshot opened.document opened.content) ∧
      Yields isOfCells documents []
        (gather snapshot (definition.filter.both view.filter) snapshot.index.files : Job σ _) := by
  have hsucceeds : Succeeds (gather snapshot (definition.filter.both view.filter)
      snapshot.index.files : Job σ _) :=
    (raises_gather _ _).succeeds fun e he => Bool.noConfusion (hfields.symm.trans he.strict)
  obtain ⟨documents, hgather⟩ := hsucceeds s
  obtain ⟨hdocuments, hread, hchecked⟩ := gather_eq hgather
  rw [filter_both hchecked] at hdocuments
  refine ⟨documents, hdocuments, hread, (avoids_gather _ _).yields fun t => ?_⟩
  rw [(detached_gather _ _ _).run_eq s t]
  exact hgather

/-- The rows of a view in a corpus that is not strict about fields, and what is reported about its
cells on the way. -/
theorem yields_rows (hfields : snapshot.corpus.strictFields = false)
    (hsorts : snapshot.corpus.strictDefinitions = true →
      ∀ entry ∈ view.sorts, (definition.sortColumn? entry).isSome = true) (s : σ) :
    let sorts := view.sorts.filterMap definition.sortColumn?
    Yields isOfCells (definition.sortedRows snapshot view sorts)
      (problemEvents snapshot.corpus (definition.failures snapshot (view.needed sorts)
        (definition.matching snapshot view)))
      (definition.rows snapshot view : Job σ (List Row)) := by
  intro sorts
  obtain ⟨documents, hdocuments, hread, hgathered⟩ := yields_gather definition view hfields s
  have hcomputed := yields_rowsOf (σ := σ) definition hfields hread (view.needed sorts)
  have hreported := yields_problemEvents (σ := σ) definition snapshot (view.needed sorts)
    (definition.matching snapshot view)
  rw [hdocuments] at hcomputed
  rw [rows_eq]
  refine hgathered.none_bind ((yields_sortColumns hsorts view.name).none_bind ?_)
  rw [Layout.columns_ofView]
  exact hcomputed.none_bind (hreported.bind_none (yields_arrange snapshot.corpus sorts))

/-! ## Calls -/

section

variable {corpus : Corpus} {around : Surroundings} {index : Index} {rows : List Row}
  {events : List Event}

theorem filter_sweepEvents (cache : Cache Sheet) :
    (around.sweepEvents cache).filter isOfCells = [] := by
  unfold Surroundings.sweepEvents
  split
  · decide
  · rfl

/-- Beside what is reported of the rows, a call reports nothing about cells. -/
theorem yields_recompute (hwalk : Index.ofDisk around.disk corpus.root = .ok index)
    (hrows : Yields isOfCells rows events (definition.rowsFrom corpus around view index))
    (desk : Desk) :
    ((definition.recompute corpus around view).run desk).result = .ok ⟨desk.made, rows⟩ ∧
      ((definition.recompute corpus around view).run desk).events.filter isOfCells = events := by
  obtain ⟨hresult, hevents⟩ := hrows desk
  have hlisted : Index.listed.filter isOfCells = [] := by decide
  have hkept : (Event.log .info "materialized view" :: around.sweepEvents desk.cache).filter
      isOfCells = [] := by
    rw [List.filter_cons_of_neg (by decide), filter_sweepEvents]
  rw [run_recompute_of_ok hwalk hresult]
  refine ⟨rfl, ?_⟩
  rw [List.filter_append, List.filter_append, hlisted, hevents, hkept, List.append_nil,
    List.nil_append]

theorem yields_materialize {name : String} {force : Bool} {desk : Desk}
    (hview : definition.view name = .ok view)
    (hmiss : force = true ∨
      (desk.cache.get around.ttl around.now (definition.cacheKey corpus view)).1 = none)
    (hwalk : Index.ofDisk around.disk corpus.root = .ok index)
    (hrows : Yields isOfCells rows events (definition.rowsFrom corpus around view index)) :
    ((definition.materialize corpus around name force).run desk).result = .ok ⟨desk.made, rows⟩ ∧
      ((definition.materialize corpus around name force).run desk).events.filter isOfCells =
        events := by
  cases force with
  | true =>
    rw [materialize_forced hview]
    exact yields_recompute hwalk hrows desk
  | false =>
    obtain ⟨hresult, hevents⟩ := yields_recompute hwalk hrows
      { desk with cache := desk.cache.prune around.ttl around.now }
    rw [run_materialize_unforced hview (hmiss.resolve_left Bool.false_ne_true)]
    refine ⟨hresult, ?_⟩
    rw [List.filter_append, filter_sweepEvents, List.nil_append]
    exact hevents

/-- A view that is taken from the cache is the sheet found there, and nothing is said of cells. -/
theorem yields_hit {name : String} {desk : Desk} {sheet : Sheet}
    (hview : definition.view name = .ok view)
    (hhit : (desk.cache.get around.ttl around.now (definition.cacheKey corpus view)).1 =
      some sheet) :
    ((definition.materialize corpus around name false).run desk).result = .ok sheet ∧
      ((definition.materialize corpus around name false).run desk).events.filter isOfCells =
        [] := by
  rw [run_materialize_of_hit hview hhit]
  refine ⟨rfl, ?_⟩
  rw [List.filter_append, filter_sweepEvents]
  decide

/-- In a corpus that is not strict about fields a view that is computed has a row for each document
that passes, whatever cells cannot be computed. Such a cell is the empty text, and is sorted by it.
If there are such cells, one notice lists what went wrong, document by document and column by
column: all of it, and it goes to the log, or, if there are more than fifty, the first fifty, and
the log has a line for each of them. A view that is taken from the cache computes no cells, and
nothing is said of them. -/
theorem materialize_lists_failures {name : String} {force : Bool} {desk : Desk}
    (hfields : corpus.strictFields = false) (hview : definition.view name = .ok view)
    (hwalk : Index.ofDisk around.disk corpus.root = .ok index)
    (hentries : corpus.strictDefinitions = true →
      ∀ entry ∈ view.sorts, (definition.sortColumn? entry).isSome = true) :
    let snapshot : Snapshot := ⟨corpus, around.disk, index⟩
    let docs := definition.matching snapshot view
    let sorts := view.sorts.filterMap definition.sortColumn?
    let columns := view.needed sorts
    let failures := definition.failures snapshot columns docs
    let cells := definition.cellsOf snapshot columns
    let done := (definition.materialize corpus around name force).run desk
    let told := done.events.filter isOfCells
    let cached := (desk.cache.get around.ttl around.now (definition.cacheKey corpus view)).1
    (force = true ∨ cached = none →
      done.result = .ok ⟨desk.made, definition.sortedRows snapshot view sorts⟩ ∧
      (definition.sortedRows snapshot view sorts).length = docs.length ∧
      (∀ doc ∈ docs, ∀ position column, columns[position]? = some column →
        (definition.failure? snapshot doc column).isSome = true →
          (cells doc)[position]? = some (.str "") ∧
          Table.keyAt (Table.numericColumns columns.length (docs.map cells)) position (cells doc) =
            .text "") ∧
      (failures.length = 0 → told = []) ∧
      (1 ≤ failures.length → failures.length ≤ 50 →
        told = [.log .warning "problems during base rendering",
          .message (corpus.message .warning "problems during base rendering"
            (String.intercalate "\n" failures))]) ∧
      (50 < failures.length →
        told = failures.map (.log .warning ·) ++
          [.message (corpus.message .warning "problems during base rendering"
            (String.intercalate "\n" (failures.take 50 ++ ["... see system logs"])))])) ∧
    (∀ sheet, force = false → cached = some sheet → done.result = .ok sheet ∧ told = []) := by
  intro snapshot docs sorts columns failures cells done told cached
  constructor
  · intro hmiss
    have hfields : snapshot.corpus.strictFields = false := hfields
    obtain ⟨hresult, htold⟩ := yields_materialize hview hmiss hwalk
      (yields_rows hfields hentries desk)
    refine ⟨hresult, length_sortedRows sorts, ?_, ?_, ?_, ?_⟩
    · intro doc hdoc position column hcolumn hfails
      exact ⟨getElem?_cellsOf_of_failure hcolumn hfails, key_of_failure hdoc hcolumn hfails⟩
    · exact fun hnone => htold.trans (problemEvents_of_length_eq_zero hnone)
    · exact fun hsome hle => htold.trans (problemEvents_of_le hsome hle)
    · exact fun hlt => htold.trans (problemEvents_of_lt hlt)
  · rintro sheet rfl hhit
    exact yields_hit hview hhit

end

/-- A view of one of the notes in which no column has a value. -/
def gapView : View where
  name := "v"
  kind := .table
  filter := .field (.ofSource "file.name == \"a.md\"")
  order := ["formula.none", "file.size", "formula.none"]
  sorts := []

/-- The definition that holds `gapView`. -/
def gapDefinition : Definition := { noteDefinition with views := [gapView] }

/-- What is said of the values that are missing in `gapView`. -/
def gapLines : List String :=
  ["could not find value formula.none from a.md: " ++
      "unsupported field `formula.none`: unknown formula",
    "could not find value file.size from a.md: " ++
      "unsupported field `file.size`: unknown file property"]

/-- Two values are missing, one of them asked for twice. -/
theorem materialize_lists_failures_of_gaps :
    let done := (gapDefinition.materialize noteCorpus ⟨noteDisk, 0, fun _ => 60⟩ "v" true).run
      ⟨⟨[]⟩, .empty, 0⟩
    (∃ rows, done.result = .ok ⟨0, rows⟩ ∧ rows.length = 1) ∧
      done.events.filter isOfCells =
        [.log .warning "problems during base rendering",
          .message (noteCorpus.message .warning "problems during base rendering"
            (String.intercalate "\n" gapLines))] := by
  have hdocs : gapDefinition.matching ⟨noteCorpus, noteDisk, ⟨[["a.md"], ["b.md"]]⟩⟩ gapView =
      [⟨"/notes/a.md", "a.md"⟩] := by
    decide +kernel
  have hlines : gapDefinition.failures ⟨noteCorpus, noteDisk, ⟨[["a.md"], ["b.md"]]⟩⟩
      (gapView.needed (gapView.sorts.filterMap gapDefinition.sortColumn?))
      [⟨"/notes/a.md", "a.md"⟩] = gapLines := by
    decide +kernel
  have hcount : gapLines.length = 2 := rfl
  obtain ⟨hresult, hlength, -, -, hfew, -⟩ :=
    (@materialize_lists_failures gapDefinition gapView noteCorpus ⟨noteDisk, 0, fun _ => 60⟩ _
      "v" true ⟨⟨[]⟩, .empty, 0⟩ rfl rfl ofDisk_noteDisk nofun).1 (.inl rfl)
  rw [hdocs] at hlength hfew
  rw [hlines] at hfew
  exact ⟨⟨_, hresult, hlength⟩, hfew (by omega) (by omega)⟩

end Definition

end CorpusQuery
