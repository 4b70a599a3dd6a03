import CorpusQuery.Proofs.Corpus.Walk
import CorpusQuery.Proofs.Document.Filtering
import CorpusQuery.Proofs.View.Layout
import CorpusQuery.Proofs.View.Rows
import Mathlib

/-!
# Rows and documents

The rows of a view that is computed correspond to the documents that a walk of the disk lists and
that pass the filters, one row for one document. Each stage of the computation is followed:
gathering, computing the cells, sorting, showing.
-/

namespace CorpusQuery

open Job Document

variable {σ : Type}

namespace Definition

variable {definition : Definition} {snapshot : Snapshot} {view : View}

/-! ## Gathering -/

/-- Gathering keeps the files that pass the filter, in their order. What it has read of a document
is what the document says. -/
theorem gather_eq {filter : Filter} {files : List RelPath} {documents : List OpenDocument} {s : σ}
    (h : ((gather snapshot filter files).run s).result = .ok documents) :
    documents.map OpenDocument.document =
        (files.map (ofPath snapshot.corpus)).filter (filter.passes snapshot) ∧
      (∀ opened ∈ documents, IsRead snapshot opened.document opened.content) ∧
      ∀ file ∈ files, ∃ passed,
        ((filter.check snapshot (ofPath snapshot.corpus file)).run none).result = .ok passed := by
  induction files generalizing documents s with
  | nil =>
    cases h
    exact ⟨rfl, fun _ hopened => absurd hopened List.not_mem_nil,
      fun _ hfile => absurd hfile List.not_mem_nil⟩
  | cons file files ih =>
    rw [gather] at h
    obtain ⟨⟨passed, content⟩, hcheck, h⟩ := result_bind_eq_ok h
    obtain ⟨rest, hrest, h⟩ := result_bind_eq_ok h
    obtain ⟨hdocuments, hread, hchecked⟩ := ih hrest
    rw [run_aside] at hcheck
    cases hresult : ((filter.check snapshot (ofPath snapshot.corpus file)).run none).result with
    | error e =>
      rw [hresult] at hcheck
      cases hcheck
    | ok answer =>
      rw [hresult] at hcheck
      cases hcheck
      have hpasses := Filter.passes_eq (.inl rfl) hresult
      refine ⟨?_, ?_, ?_⟩
      · cases h
        rw [List.map_cons, List.filter_cons, hpasses, ← hdocuments]
        cases passed <;> rfl
      · cases h
        intro opened hopened
        cases passed with
        | false => exact hread opened hopened
        | true =>
          rcases List.mem_cons.mp hopened with rfl | hopened
          · exact (Filter.settled_check filter).isRead (.inl rfl)
          · exact hread opened hopened
      · intro other hother
        rcases List.mem_cons.mp hother with rfl | hother
        · exact ⟨passed, hresult⟩
        · exact hchecked other hother

/-! ## Computing -/

/-- The values of the rows are those of their documents. -/
theorem rowsOf_eq {columns : List String} {documents : List OpenDocument}
    {computed : List (List Value) × List String} {s : σ}
    (hread : ∀ opened ∈ documents, IsRead snapshot opened.document opened.content)
    (h : ((definition.rowsOf snapshot columns documents).run s).result = .ok computed) :
    computed.1 = (documents.map OpenDocument.document).map fun doc =>
        columns.map (definition.valueOrEmpty snapshot doc) := by
  induction documents generalizing computed s with
  | nil =>
    cases h
    rfl
  | cons opened rest ih =>
    rw [rowsOf_cons] at h
    obtain ⟨⟨values, problems⟩, hvalues, h⟩ := result_bind_eq_ok h
    obtain ⟨others, hothers, h⟩ := result_bind_eq_ok h
    rw [run_rowValues] at hvalues
    cases h
    rw [List.map_cons, List.map_cons,
      ← ih (fun other hother => hread other (List.mem_cons_of_mem _ hother)) hothers,
      values_eq (hread opened List.mem_cons_self) hvalues]

/-- In a corpus that is strict about fields all values of all rows could be computed. -/
theorem value_ok_of_rowsOf {columns : List String} {documents : List OpenDocument}
    {computed : List (List Value) × List String} {s : σ}
    (hstrict : snapshot.corpus.strictFields = true)
    (hread : ∀ opened ∈ documents, IsRead snapshot opened.document opened.content)
    (h : ((definition.rowsOf snapshot columns documents).run s).result = .ok computed) :
    ∀ opened ∈ documents, ∀ column ∈ columns, ∃ value,
      ((definition.value snapshot opened.document column).run none).result = .ok value := by
  induction documents generalizing computed s with
  | nil => exact fun opened hopened => absurd hopened List.not_mem_nil
  | cons first rest ih =>
    rw [rowsOf_cons] at h
    obtain ⟨values, hvalues, h⟩ := result_bind_eq_ok h
    obtain ⟨others, hothers, -⟩ := result_bind_eq_ok h
    rw [run_rowValues] at hvalues
    intro opened hopened
    rcases List.mem_cons.mp hopened with rfl | hopened
    · exact value_ok_of_values hstrict (hread opened List.mem_cons_self) hvalues
    · exact ih (fun other hother => hread other (List.mem_cons_of_mem _ hother)) hothers
        opened hopened

/-! ## Sorting and showing -/

/-- Sorting neither drops nor repeats a row. -/
theorem sort_perm (numeric : List Bool) (plan : List SortStep) (table : List (List Value)) :
    (Table.sort numeric plan table).Perm table := by
  have hkeyed :
      ((table.map fun row => (Table.keysOf numeric plan row, row)).map (·.2)) = table := by
    rw [List.map_map]
    exact List.map_id table
  unfold Table.sort
  exact ((List.mergeSort_perm _ _).map _).trans (List.Perm.of_eq hkeyed)

/-- The rows that are shown are those that were computed, in some order. -/
theorem arrange_perm {corpus : Corpus} {sorts : List SortColumn} {values : List (List Value)}
    {rows : List Row} {s : σ}
    (h : ((definition.arrange corpus view sorts values).run s).result = .ok rows) :
    rows.Perm (values.map fun cells =>
      definition.row (Layout.ofView view sorts) (cells.map Value.cell)) := by
  unfold arrange at h
  obtain ⟨plan, -, h⟩ := result_bind_eq_ok h
  cases h
  have hperm := (sort_perm (Table.numericColumns (Layout.ofView view sorts).columns.length
    (values.map fun row => row.map Value.cell)) plan
    (values.map fun row => row.map Value.cell)).map (definition.row (Layout.ofView view sorts))
  rwa [List.map_map] at hperm

/-! ## The correspondence -/

/-- The documents of the files in an index that pass the filters of a view. -/
def matching (definition : Definition) (snapshot : Snapshot) (view : View) : List Document :=
  (snapshot.index.files.map (ofPath snapshot.corpus)).filter fun doc =>
    definition.filter.passes snapshot doc && view.filter.passes snapshot doc

/-- What a view shows of the value of a column for a document. -/
def shownCell (definition : Definition) (snapshot : Snapshot) (doc : Document)
    (column : String) : Value :=
  match ((definition.value snapshot doc column).run none).result with
  | .ok .null => .float (0.0 / 0.0)
  | .ok (.list items) => .str (Value.list items).text
  | .ok (.map entries) => .str (Value.map entries).text
  | .ok (.document path) => .str (Value.document path).text
  | .ok value => value
  | .error _ => .str ""

/-- The row of a document: the columns that the view asks for, each once. -/
def rowFor (definition : Definition) (snapshot : Snapshot) (view : View) (doc : Document) : Row :=
  definition.rowOfCells view.asked.eraseDups (definition.shownCell snapshot doc)

theorem cell_valueOrEmpty (doc : Document) (column : String) :
    (definition.valueOrEmpty snapshot doc column).cell =
      definition.shownCell snapshot doc column := by
  unfold valueOrEmpty shownCell
  cases ((definition.value snapshot doc column).run none).result with
  | error e => rfl
  | ok value => cases value <;> rfl

theorem filter_both {files : List RelPath}
    (hchecked : ∀ file ∈ files, ∃ passed, (((definition.filter.both view.filter).check snapshot
      (ofPath snapshot.corpus file)).run none).result = .ok passed) :
    (files.map (ofPath snapshot.corpus)).filter
        ((definition.filter.both view.filter).passes snapshot) =
      (files.map (ofPath snapshot.corpus)).filter fun doc =>
        definition.filter.passes snapshot doc && view.filter.passes snapshot doc := by
  refine List.filter_congr fun doc hdoc => ?_
  obtain ⟨file, hfile, rfl⟩ := List.mem_map.mp hdoc
  obtain ⟨passed, hpassed⟩ := hchecked file hfile
  rw [Filter.passes_eq (.inl rfl) hpassed]
  exact Filter.passes_both hpassed

/-- The rows that are computed are those of the documents that pass. -/
theorem rows_perm {rows : List Row} {s : σ}
    (h : ((definition.rows snapshot view).run s).result = .ok rows) :
    rows.Perm ((definition.matching snapshot view).map (definition.rowFor snapshot view)) ∧
      (snapshot.corpus.strictFields = true →
        ∀ doc ∈ definition.matching snapshot view, ∀ column ∈ view.asked,
          ∃ value, ((definition.value snapshot doc column).run none).result = .ok value) := by
  rw [rows_eq] at h
  obtain ⟨documents, hgather, h⟩ := result_bind_eq_ok h
  obtain ⟨sorts, -, h⟩ := result_bind_eq_ok h
  obtain ⟨computed, hcomputed, h⟩ := result_bind_eq_ok h
  obtain ⟨-, -, h⟩ := result_bind_eq_ok h
  obtain ⟨hdocuments, hread, hchecked⟩ := gather_eq hgather
  rw [filter_both hchecked] at hdocuments
  have hlayout := Layout.shows_ofView view sorts
  constructor
  · have hrow : ∀ doc : Document,
        definition.row (Layout.ofView view sorts)
          (((Layout.ofView view sorts).columns.map
            (definition.valueOrEmpty snapshot doc)).map Value.cell) =
          definition.rowFor snapshot view doc := by
      intro doc
      rw [List.map_map, row_eq_rowOfCells hlayout]
      exact congrArg _ (funext fun column => cell_valueOrEmpty doc column)
    have hperm := arrange_perm h
    rw [rowsOf_eq hread hcomputed, hdocuments, List.map_map] at hperm
    exact hperm.trans (List.Perm.of_eq (List.map_congr_left fun doc _ => hrow doc))
  · intro hstrict doc hdoc column hcolumn
    unfold matching at hdoc
    rw [← hdocuments] at hdoc
    obtain ⟨opened, hopened, rfl⟩ := List.mem_map.mp hdoc
    refine value_ok_of_rowsOf hstrict hread hcomputed opened hopened column ?_
    rw [← List.mem_eraseDups, ← hlayout.shown] at hcolumn
    obtain ⟨position, hposition, rfl⟩ := List.mem_map.mp hcolumn
    unfold Layout.columnAt
    rw [List.getD_eq_getElem _ _ (hlayout.inside position hposition)]
    exact List.getElem_mem _

/-- A view that is not taken from the cache has one row for each document that a walk of the disk
lists and that passes both filters. What the index held before does not count. -/
theorem rows_correspond {corpus : Corpus} {around : Surroundings} {name : String} {force : Bool}
    {desk : Desk} {sheet : Sheet} (hview : definition.view name = .ok view)
    (hmiss : force = true ∨
      (desk.cache.get around.ttl around.now (definition.cacheKey corpus view)).1 = none)
    (h : ((definition.materialize corpus around name force).run desk).result = .ok sheet) :
    ∃ index, Index.ofDisk around.disk corpus.root = .ok index ∧
      (around.disk.Distinct → index.files.Nodup) ∧
      sheet.rows.Perm ((definition.matching ⟨corpus, around.disk, index⟩ view).map
        (definition.rowFor ⟨corpus, around.disk, index⟩ view)) ∧
      (∀ row ∈ sheet.rows, row.keys = (view.asked.eraseDups.map definition.heading).eraseDups) ∧
      (corpus.strictFields = true →
        ∀ doc ∈ definition.matching ⟨corpus, around.disk, index⟩ view, ∀ column ∈ view.asked,
          ∃ value, ((definition.value ⟨corpus, around.disk, index⟩ doc column).run none).result =
            .ok value) ∧
      ∀ before, ((definition.materialize corpus around name force).run
        { desk with index := before }).result = .ok sheet := by
  cases hwalk : Index.ofDisk around.disk corpus.root with
  | error fault =>
    obtain ⟨events, before, -, -, -, hrun⟩ := run_materialize_of_miss hview hmiss
    rw [hrun, run_recompute_of_fault hwalk] at h
    cases h
  | ok index =>
    have hresult := result_materialize_of_miss hview hmiss hwalk
    rw [hresult] at h
    cases hrows : ((definition.rowsFrom corpus around view index).run desk).result with
    | error e =>
      rw [hrows] at h
      cases h
    | ok rows =>
      rw [hrows] at h
      cases h
      obtain ⟨hperm, hvalues⟩ := rows_perm hrows
      refine ⟨index, rfl, fun hdistinct => Index.nodup_ofDisk hdistinct hwalk, hperm, ?_,
        hvalues, fun before => ?_⟩
      · intro row hrow
        obtain ⟨doc, -, rfl⟩ := List.mem_map.mp (hperm.mem_iff.mp hrow)
        exact keys_rowOfCells definition _ _
      · have hother := (detached_rows definition ⟨corpus, around.disk, index⟩ view).run_eq desk
          { desk with index := before }
        have hagain : ((definition.materialize corpus around name force).run
            { desk with index := before }).result =
            ((definition.rowsFrom corpus around view index).run
              { desk with index := before }).result.map (Sheet.mk desk.made) :=
          result_materialize_of_miss hview hmiss hwalk
        unfold rowsFrom at hrows hagain
        rw [hagain, hother, hrows]
        rfl

/-- A disk with two notes in the folder `notes`. -/
def noteDisk : Disk where
  entries := [("notes", .folder [
    ("b.md", .file "---\nprice: 1\n---\n".toUTF8), ("a.md", .file "---\nprice: 5\n---\n".toUTF8)])]

/-- The corpus of the notes on `noteDisk`. -/
def noteCorpus : Corpus := { name := "notes", root := ["notes"], config := {} }

theorem ofDisk_noteDisk : Index.ofDisk noteDisk noteCorpus.root = .ok ⟨[["a.md"], ["b.md"]]⟩ := by
  cbv

/-- A view of one of the notes. -/
def noteView : View where
  name := "v"
  kind := .table
  filter := .field (.ofSource "file.name == \"a.md\"")
  order := ["file.name"]
  sorts := []

/-- The definition that holds `noteView`. -/
def noteDefinition : Definition where
  path := "v.base"
  filter := .trivial
  formulas := []
  columns := []
  views := [noteView]

theorem rows_correspond_of_notes :
    ∃ sheet index,
      ((noteDefinition.materialize noteCorpus ⟨noteDisk, 0, fun _ => 60⟩ "v" true).run
        ⟨⟨[]⟩, .empty, 0⟩).result = .ok sheet ∧
      Index.ofDisk noteDisk noteCorpus.root = .ok index ∧
      sheet.rows.Perm ((noteDefinition.matching ⟨noteCorpus, noteDisk, index⟩ noteView).map
        (noteDefinition.rowFor ⟨noteCorpus, noteDisk, index⟩ noteView)) ∧
      sheet.rows.length = 1 := by
  have hlength : (match ((noteDefinition.rowsFrom noteCorpus ⟨noteDisk, 0, fun _ => 60⟩ noteView
      ⟨[["a.md"], ["b.md"]]⟩).run ⟨⟨[]⟩, .empty, 0⟩).result with
      | .ok rows => rows.length
      | .error _ => 0) = 1 := by
    decide +kernel
  have hresult : ((noteDefinition.materialize noteCorpus ⟨noteDisk, 0, fun _ => 60⟩ "v" true).run
      ⟨⟨[]⟩, .empty, 0⟩).result =
      ((noteDefinition.rowsFrom noteCorpus ⟨noteDisk, 0, fun _ => 60⟩ noteView
        ⟨[["a.md"], ["b.md"]]⟩).run ⟨⟨[]⟩, .empty, 0⟩).result.map (Sheet.mk 0) :=
    result_materialize_of_miss rfl (.inl rfl) ofDisk_noteDisk
  cases hrows : ((noteDefinition.rowsFrom noteCorpus ⟨noteDisk, 0, fun _ => 60⟩ noteView
      ⟨[["a.md"], ["b.md"]]⟩).run ⟨⟨[]⟩, .empty, 0⟩).result with
  | error e =>
    rw [hrows] at hlength
    cases hlength
  | ok rows =>
    rw [hrows] at hlength hresult
    obtain ⟨index, hwalk, -, hperm, -⟩ :=
      @rows_correspond noteDefinition noteView _ _ _ _ _ _ rfl (.inl rfl) hresult
    exact ⟨⟨0, rows⟩, index, hresult, hwalk, hperm, hlength⟩

end Definition

end CorpusQuery
