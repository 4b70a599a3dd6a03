import CorpusQuery.Proofs.View.Refusals
import Mathlib.Data.Finset.Dedup
import Mathlib.Data.List.Forall2

/-!
# Cells under headings

A row holds the cell of a column under the heading of the column, and each heading once. Columns
can share a heading: the definition gives them the same one, or gives one of them the name of
another. Then the row has one cell for them, which is that of the last of them. So a row shows all
columns exactly if no two of them have one heading (`row_shows_last_under_heading`).
-/

namespace CorpusQuery

open Job

theorem length_eraseDups_eq_iff (values : List String) :
    values.eraseDups.length = values.length ↔ values.Nodup := by
  have hsame : values.eraseDups.toFinset = values.toFinset := by
    ext value
    rw [List.mem_toFinset, List.mem_toFinset, List.mem_eraseDups]
  rw [← List.toFinset_card_of_nodup (nodup_eraseDups values), hsame]
  exact Multiset.toFinset_card_eq_card_iff_nodup (m := (values : Multiset String))

/-- A cell that is set is found under its key, and nothing changes under the other keys. -/
theorem Row.get?_insert (row : Row) (key other : String) (value : Value) :
    (row.insert key value).get? other = if key = other then some value else row.get? other := by
  have hcells (cells : List (String × Value)) :
      ((insertCell key value cells).find? fun cell => cell.1 == other).map (·.2) =
        if key = other then some value
        else (cells.find? fun cell => cell.1 == other).map (·.2) := by
    induction cells with
    | nil => by_cases hother : key = other <;> simp [insertCell, hother]
    | cons cell cells ih =>
      obtain ⟨k, v⟩ := cell
      rw [insertCell]
      by_cases hkey : k = key
      · subst hkey
        by_cases hother : k = other <;> simp [hother]
      · by_cases hother : k = other
        · subst hother
          simp [hkey, Ne.symm hkey]
        · simp [hkey, hother, ih]
  exact hcells row.cells

namespace Definition

variable {definition : Definition} {view : View}

/-! ## The last column under a heading -/

/-- The last of some columns that have the given heading. -/
def lastUnder? (definition : Definition) (columns : List String) (heading : String) :
    Option String :=
  columns.reverse.find? fun column => definition.heading column == heading

theorem lastUnder?_concat (columns : List String) (column heading : String) :
    definition.lastUnder? (columns ++ [column]) heading =
      if definition.heading column = heading then some column
      else definition.lastUnder? columns heading := by
  rw [lastUnder?, List.reverse_concat, List.find?_cons]
  by_cases h : definition.heading column = heading
  · rw [if_pos h, beq_iff_eq.mpr h]
  · rw [if_neg h, beq_eq_false_iff_ne.mpr h]
    rfl

theorem lastUnder?_of_split {before after : List String} {column : String}
    (hlater : ∀ later ∈ after, definition.heading later ≠ definition.heading column) :
    definition.lastUnder? (before ++ column :: after) (definition.heading column) =
      some column := by
  induction after using List.reverseRecOn with
  | nil => rw [lastUnder?_concat, if_pos rfl]
  | append_singleton after last ih =>
    have hlast : definition.heading last ≠ definition.heading column :=
      hlater last (List.mem_append_right _ List.mem_cons_self)
    rw [← List.cons_append, ← List.append_assoc, lastUnder?_concat, if_neg hlast]
    exact ih fun later h => hlater later (List.mem_append_left _ h)

/-- Under a heading is the cell of the last column that has it. -/
theorem get?_rowOfCells (columns : List String) (cell : String → Value) (heading : String) :
    (definition.rowOfCells columns cell).get? heading =
      (definition.lastUnder? columns heading).map cell := by
  induction columns using List.reverseRecOn with
  | nil => rfl
  | append_singleton columns column ih =>
    rw [rowOfCells, List.foldl_concat, Row.get?_insert, lastUnder?_concat]
    split
    · rfl
    · exact ih

/-! ## Rows -/

/-- Whether a row has each heading of some columns once, and under it the cell of the last column
that has it. -/
structure ShowsLast (definition : Definition) (columns : List String) (cell : String → Value)
    (row : Row) : Prop where
  keys : row.keys = (columns.map definition.heading).eraseDups
  shown : ∀ before column after, columns = before ++ column :: after →
    (∀ later ∈ after, definition.heading later ≠ definition.heading column) →
    row.get? (definition.heading column) = some (cell column)

/-- Whether a row has a cell for each of some columns: the cell of the column, under its
heading. -/
structure ShowsEach (definition : Definition) (columns : List String) (cell : String → Value)
    (row : Row) : Prop where
  size : row.size = columns.length
  shown : ∀ column ∈ columns, row.get? (definition.heading column) = some (cell column)

theorem showsLast_rowOfCells (columns : List String) (cell : String → Value) :
    definition.ShowsLast columns cell (definition.rowOfCells columns cell) where
  keys := keys_rowOfCells definition columns cell
  shown := by
    rintro before column after rfl hlater
    rw [get?_rowOfCells, lastUnder?_of_split hlater, Option.map_some]

/-- No cell is lost exactly if the headings are all different. -/
theorem ShowsLast.showsEach_iff {columns : List String} {cell : String → Value} {row : Row}
    (h : definition.ShowsLast columns cell row) :
    definition.ShowsEach columns cell row ↔ (columns.map definition.heading).Nodup := by
  have hsize : row.size = (columns.map definition.heading).eraseDups.length := by
    rw [← h.keys, Row.keys, List.length_map, Row.size]
  rw [← length_eraseDups_eq_iff, ← hsize, List.length_map]
  refine ⟨ShowsEach.size, fun heq => ⟨heq, fun column hcolumn => ?_⟩⟩
  have hdistinct : (columns.map definition.heading).Nodup := by
    rw [← length_eraseDups_eq_iff, ← hsize, heq, List.length_map]
  obtain ⟨before, after, rfl⟩ := List.append_of_mem hcolumn
  refine h.shown before column after rfl fun later hlater heading => ?_
  rw [List.map_append, List.map_cons] at hdistinct
  have hnew := (List.nodup_cons.mp hdistinct.of_append_right).1
  exact hnew (heading ▸ List.mem_map_of_mem hlater)

/-- A call gives a table from the cache, or one with a row for each document that passes the
filters. The row has each heading of the columns asked for once, and under it the cell of the last
column with that heading. It has a cell for each column exactly if no two of them have one
heading. -/
theorem row_shows_last_under_heading {corpus : Corpus} {around : Surroundings} {name : String}
    {force : Bool} {desk : Desk} {sheet : Sheet} (hview : definition.view name = .ok view)
    (h : ((definition.materialize corpus around name force).run desk).result = .ok sheet) :
    (force = false ∧
        (desk.cache.get around.ttl around.now (definition.cacheKey corpus view)).1 =
          some sheet) ∨
      ∃ index documents, Index.ofDisk around.disk corpus.root = .ok index ∧
        documents.Perm (definition.matching ⟨corpus, around.disk, index⟩ view) ∧
        List.Forall₂
          (fun row doc =>
            let cell := definition.shownCell ⟨corpus, around.disk, index⟩ doc
            definition.ShowsLast view.asked.eraseDups cell row ∧
              (definition.ShowsEach view.asked.eraseDups cell row ↔
                (view.asked.eraseDups.map definition.heading).Nodup))
          sheet.rows documents := by
  rcases hit_or_miss definition corpus around view force desk with ⟨rfl, found, hhit⟩ | hmiss
  · rw [run_materialize_of_hit hview hhit] at h
    cases h
    exact .inl ⟨rfl, hhit⟩
  · obtain ⟨index, hwalk, hrows⟩ := rows_of_materialize_of_miss hview hmiss h
    have hperm := (rows_perm hrows).1
    have hsame : List.Forall₂
        (fun row doc => row = definition.rowFor ⟨corpus, around.disk, index⟩ view doc)
        ((definition.matching ⟨corpus, around.disk, index⟩ view).map
          (definition.rowFor ⟨corpus, around.disk, index⟩ view))
        (definition.matching ⟨corpus, around.disk, index⟩ view) :=
      List.forall₂_map_left_iff.mpr (List.forall₂_same.mpr fun _ _ => rfl)
    obtain ⟨documents, hdocuments, hmatching⟩ := List.perm_comp_forall₂ hperm hsame
    refine .inr ⟨index, documents, hwalk, hmatching, hdocuments.imp ?_⟩
    rintro _ doc rfl
    have hlast : definition.ShowsLast view.asked.eraseDups
        (definition.shownCell ⟨corpus, around.disk, index⟩ doc)
        (definition.rowFor ⟨corpus, around.disk, index⟩ view doc) := showsLast_rowOfCells _ _
    exact ⟨hlast, hlast.showsEach_iff⟩

/-- A view of one of the notes, with two columns. -/
def pathView : View where
  name := "v"
  kind := .table
  filter := noteView.filter
  order := ["file.ext", "file.path"]
  sorts := []

/-- The definition that holds `pathView`, and gives its second column the name of the first. -/
def pathDefinition : Definition where
  path := "v.base"
  filter := .trivial
  formulas := []
  columns := [("file.path", ⟨some "file.ext", []⟩)]
  views := [pathView]

/-- The row of the note, without its extension. -/
theorem exists_path_row :
    ∃ row, ((pathDefinition.materialize noteCorpus ⟨noteDisk, 0, fun _ => 60⟩ "v" true).run
        ⟨⟨[]⟩, .empty, 0⟩).result = .ok ⟨0, [row]⟩ ∧
      row.cells.map (fun cell => (cell.1, cell.2.text)) = [("file.ext", "a.md")] := by
  have hresult : ((pathDefinition.materialize noteCorpus ⟨noteDisk, 0, fun _ => 60⟩ "v" true).run
      ⟨⟨[]⟩, .empty, 0⟩).result =
      ((pathDefinition.rowsFrom noteCorpus ⟨noteDisk, 0, fun _ => 60⟩ pathView
        ⟨[["a.md"], ["b.md"]]⟩).run ⟨⟨[]⟩, .empty, 0⟩).result.map (Sheet.mk 0) :=
    result_materialize_of_miss rfl (.inl rfl) ofDisk_noteDisk
  have hcells : (match ((pathDefinition.rowsFrom noteCorpus ⟨noteDisk, 0, fun _ => 60⟩ pathView
      ⟨[["a.md"], ["b.md"]]⟩).run ⟨⟨[]⟩, .empty, 0⟩).result with
      | .ok rows => rows.map fun row => row.cells.map fun cell => (cell.1, cell.2.text)
      | .error _ => []) = [[("file.ext", "a.md")]] := by
    decide +kernel
  cases hrows : ((pathDefinition.rowsFrom noteCorpus ⟨noteDisk, 0, fun _ => 60⟩ pathView
      ⟨[["a.md"], ["b.md"]]⟩).run ⟨⟨[]⟩, .empty, 0⟩).result with
  | error e =>
    rw [hrows] at hcells
    cases hcells
  | ok rows =>
    rw [hrows] at hresult hcells
    obtain ⟨row, rfl, hrow⟩ := List.map_eq_singleton_iff.mp hcells
    exact ⟨row, hresult, hrow⟩

theorem row_shows_last_under_heading_of_path :
    pathDefinition.view "v" = .ok pathView ∧
      ∃ row, ((pathDefinition.materialize noteCorpus ⟨noteDisk, 0, fun _ => 60⟩ "v" true).run
          ⟨⟨[]⟩, .empty, 0⟩).result = .ok ⟨0, [row]⟩ ∧
        row.keys = ["file.ext"] ∧
        ∃ index doc, Index.ofDisk noteDisk noteCorpus.root = .ok index ∧
          row.get? "file.ext" =
            some (pathDefinition.shownCell ⟨noteCorpus, noteDisk, index⟩ doc "file.path") := by
  obtain ⟨row, hresult, -⟩ := exists_path_row
  refine ⟨rfl, row, hresult, ?_⟩
  have hview : pathDefinition.view "v" = .ok pathView := rfl
  rcases row_shows_last_under_heading hview hresult with
    ⟨hforce, -⟩ | ⟨index, documents, hwalk, -, hrows⟩
  · cases hforce
  · cases hrows with
    | @cons _ doc _ _ hrow =>
      obtain ⟨hlast, -⟩ := hrow
      exact ⟨hlast.keys, index, doc, hwalk,
        hlast.shown ["file.ext"] "file.path" [] rfl (List.forall_mem_nil _)⟩

/-- The column `file.path` has the heading `file.ext`, and takes the place of the extension. -/
theorem not_showsEach_of_shared_heading :
    ∃ row, ((pathDefinition.materialize noteCorpus ⟨noteDisk, 0, fun _ => 60⟩ "v" true).run
        ⟨⟨[]⟩, .empty, 0⟩).result = .ok ⟨0, [row]⟩ ∧
      row.cells.map (fun cell => (cell.1, cell.2.text)) = [("file.ext", "a.md")] ∧
      ∀ cell, ¬pathDefinition.ShowsEach pathView.asked.eraseDups cell row := by
  obtain ⟨row, hresult, hcells⟩ := exists_path_row
  refine ⟨row, hresult, hcells, fun cell heach => ?_⟩
  have hone : row.size = 1 := by
    rw [Row.size, ← List.length_map (f := fun cell => (cell.1, cell.2.text)), hcells]
    rfl
  exact absurd (hone.symm.trans heach.size) (by decide)

end Definition

end CorpusQuery
