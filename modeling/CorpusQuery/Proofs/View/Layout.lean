import CorpusQuery.View.Materialize
import Mathlib.Data.List.GetD
import Mathlib.Data.List.Induction
import Mathlib.Data.List.Nodup

/-!
# What a layout shows

A layout shows each column that was asked for once, at the place where it was first asked for;
columns that are there for the sort order only are not shown. A row shows one cell for each heading.
-/

namespace CorpusQuery

/-- A value once more at the end of a list counts only if it is new. -/
theorem eraseDups_concat (values : List String) (value : String) :
    (values ++ [value]).eraseDups =
      if value ∈ values then values.eraseDups else values.eraseDups ++ [value] := by
  rw [List.eraseDups_append]
  split
  · next h =>
    have : [value].removeAll values = [] := by
      simp [List.removeAll, h]
    rw [this, List.eraseDups_nil, List.append_nil]
  · next h =>
    have : [value].removeAll values = [value] := by
      simp [List.removeAll, h]
    rw [this, List.eraseDups_cons, List.filter_nil, List.eraseDups_nil]

theorem nodup_eraseDups (values : List String) : values.eraseDups.Nodup := by
  induction values using List.reverseRecOn with
  | nil => exact List.nodup_nil
  | append_singleton values value ih =>
    rw [eraseDups_concat]
    split
    · exact ih
    · next hnew =>
      refine List.nodup_append.mpr ⟨ih, List.nodup_singleton _, fun a ha b hb hab => hnew ?_⟩
      rw [← List.mem_singleton.mp hb, ← hab]
      exact List.mem_eraseDups.mp ha

/-! ## Layouts -/

namespace Layout

/-- The column at a position of a layout. -/
def columnAt (layout : Layout) (position : Nat) : String := layout.columns.getD position ""

/-- A layout that shows the columns in `asked`, each one at its first place there. -/
structure Shows (layout : Layout) (asked : List String) : Prop where
  distinct : layout.columns.Nodup
  inside : ∀ position ∈ layout.shown, position < layout.columns.length
  shown : layout.shown.map layout.columnAt = asked.eraseDups

variable {layout : Layout} {asked : List String}

theorem Shows.shownOnce (h : layout.Shows asked) : layout.shown.Nodup := by
  refine List.Nodup.of_map layout.columnAt ?_
  rw [h.shown]
  exact nodup_eraseDups asked

theorem shows_empty : empty.Shows [] where
  distinct := List.nodup_nil
  inside := by simp [empty]
  shown := rfl

/-- Columns that come later are after those that were there. -/
theorem columnAt_append {columns more : List String} {shown : List Nat} {position : Nat}
    (h : position < columns.length) :
    columnAt ⟨columns ++ more, shown⟩ position = columnAt ⟨columns, shown⟩ position := by
  unfold columnAt
  rw [List.getD_append _ _ _ _ h]

/-- A column that is computed only changes nothing of what is shown. -/
theorem Shows.addColumn (h : layout.Shows asked) (column : String) :
    (layout.addColumn column).Shows asked := by
  unfold Layout.addColumn
  split
  · exact h
  · next hnew =>
    rw [List.contains_iff_mem] at hnew
    refine ⟨?_, ?_, ?_⟩
    · exact List.nodup_append.mpr ⟨h.distinct, List.nodup_singleton _,
        fun a ha b hb hab => hnew (List.mem_singleton.mp hb ▸ hab ▸ ha)⟩
    · intro position hposition
      rw [List.length_append]
      exact Nat.lt_add_right _ (h.inside position hposition)
    · rw [← h.shown]
      exact List.map_congr_left fun position hposition => columnAt_append (h.inside _ hposition)

theorem mem_addColumn (layout : Layout) (column : String) :
    column ∈ (layout.addColumn column).columns := by
  unfold addColumn
  split
  · next h => exact List.contains_iff_mem.mp h
  · exact List.mem_append_right _ List.mem_cons_self

/-- The position of a column is the only one that holds it. -/
theorem position_spec {column : String} (hdistinct : layout.columns.Nodup)
    (hmem : column ∈ layout.columns) :
    ∃ position, layout.position? column = some position ∧ position < layout.columns.length ∧
      ∀ other, other < layout.columns.length →
        (layout.columnAt other = column ↔ other = position) := by
  obtain ⟨position, hfind⟩ : ∃ position, layout.position? column = some position := by
    refine Option.isSome_iff_exists.mp ?_
    unfold position?
    rw [List.findIdx?_isSome]
    exact List.any_eq_true.mpr ⟨column, hmem, beq_self_eq_true _⟩
  obtain ⟨hinside, hindex⟩ := List.findIdx?_eq_some_iff_findIdx_eq.mp hfind
  have hat : layout.columns[position] = column := by
    subst hindex
    exact eq_of_beq (List.findIdx_getElem (w := hinside))
  refine ⟨position, hfind, hinside, fun other hother => ?_⟩
  unfold columnAt
  rw [List.getD_eq_getElem _ _ hother, ← hat]
  constructor
  · exact fun h => (List.Nodup.getElem_inj_iff hdistinct).mp h
  · intro h
    subst h
    rfl

/-- A column that is asked for is shown, once. -/
theorem Shows.addShown (h : layout.Shows asked) (column : String) :
    (layout.addShown column).Shows (asked ++ [column]) := by
  have hadded := h.addColumn column
  obtain ⟨position, hfind, hinside, honly⟩ :=
    position_spec hadded.distinct (layout.mem_addColumn column)
  have hshown : position ∈ (layout.addColumn column).shown ↔ column ∈ asked := by
    rw [← List.mem_eraseDups (a := column), ← hadded.shown, List.mem_map]
    constructor
    · intro hposition
      exact ⟨position, hposition, (honly position hinside).mpr rfl⟩
    · rintro ⟨other, hother, hcolumn⟩
      rwa [← (honly other (hadded.inside other hother)).mp hcolumn]
  have heq : layout.addShown column =
      if (layout.addColumn column).shown.contains position then layout.addColumn column
      else { layout.addColumn column with
        shown := (layout.addColumn column).shown ++ [position] } := by
    unfold Layout.addShown
    dsimp only
    rw [hfind]
  rw [heq]
  split
  · next hold =>
    have hasked := hshown.mp (List.contains_iff_mem.mp hold)
    refine ⟨hadded.distinct, hadded.inside, ?_⟩
    rw [hadded.shown, eraseDups_concat, if_pos hasked]
  · next hnew =>
    have hasked : column ∉ asked := fun hmem => hnew (List.contains_iff_mem.mpr (hshown.mpr hmem))
    refine ⟨hadded.distinct, ?_, ?_⟩
    · intro other hother
      rcases List.mem_append.mp hother with hother | hother
      · exact hadded.inside other hother
      · rw [List.mem_singleton.mp hother]
        exact hinside
    · rw [eraseDups_concat, if_neg hasked, ← hadded.shown, List.map_append, List.map_singleton]
      exact congrArg _ (congrArg (fun name => [name]) ((honly position hinside).mpr rfl))

theorem Shows.addShowns (h : layout.Shows asked) (columns : List String) :
    (columns.foldl Layout.addShown layout).Shows (asked ++ columns) := by
  induction columns generalizing layout asked with
  | nil => rwa [List.append_nil]
  | cons column columns ih =>
    rw [List.append_cons]
    exact ih (h.addShown column)

theorem Shows.addColumns (h : layout.Shows asked) (sorts : List SortColumn) :
    (sorts.foldl (fun layout sort => layout.addColumn sort.column) layout).Shows asked := by
  induction sorts generalizing layout with
  | nil => exact h
  | cons sort sorts ih => exact ih (h.addColumn sort.column)

end Layout

/-- The columns that a view asks for: those of its order, and a cover for cards. -/
def View.asked (view : View) : List String :=
  match view.kind with
  | .table => view.order
  | .cards => view.order ++ [coverKey]

/-- The layout of a view shows what the view asks for, whatever it is sorted by. -/
theorem Layout.shows_ofView (view : View) (sorts : List SortColumn) :
    (ofView view sorts).Shows view.asked := by
  have horder := (shows_empty.addShowns view.order).addColumns sorts
  rw [List.nil_append] at horder
  unfold ofView View.asked
  cases view.kind with
  | table => exact horder
  | cards => exact horder.addShown coverKey

/-! ## Columns -/

/-- The columns that are computed for a view: those of its order, those it is sorted by, and a cover
for cards, each once. -/
def View.needed (view : View) (sorts : List SortColumn) : List String :=
  let sorted := view.order ++ sorts.map SortColumn.column
  match view.kind with
  | .table => sorted.eraseDups
  | .cards => (sorted ++ [coverKey]).eraseDups

namespace Layout

theorem columns_addColumn {layout : Layout} {needed : List String}
    (h : layout.columns = needed.eraseDups) (column : String) :
    (layout.addColumn column).columns = (needed ++ [column]).eraseDups := by
  have hcontains : layout.columns.contains column = true ↔ column ∈ needed := by
    rw [h, List.contains_iff_mem, List.mem_eraseDups]
  rw [addColumn, eraseDups_concat]
  simp only [hcontains]
  split
  · exact h
  · rw [h]

theorem columns_addShown (layout : Layout) (column : String) :
    (layout.addShown column).columns = (layout.addColumn column).columns := by
  unfold addShown
  dsimp only
  split
  · split <;> rfl
  · rfl

theorem columns_addShowns {layout : Layout} {needed : List String}
    (h : layout.columns = needed.eraseDups) (columns : List String) :
    (columns.foldl addShown layout).columns = (needed ++ columns).eraseDups := by
  induction columns generalizing layout needed with
  | nil => rw [List.append_nil]; exact h
  | cons column columns ih =>
    rw [List.foldl_cons, ih ((columns_addShown _ _).trans (columns_addColumn h column)),
      List.append_assoc]
    rfl

theorem columns_addColumns {layout : Layout} {needed : List String}
    (h : layout.columns = needed.eraseDups) (sorts : List SortColumn) :
    (sorts.foldl (fun layout sort => layout.addColumn sort.column) layout).columns =
      (needed ++ sorts.map SortColumn.column).eraseDups := by
  induction sorts generalizing layout needed with
  | nil => rw [List.map_nil, List.append_nil]; exact h
  | cons sort sorts ih =>
    rw [List.foldl_cons, ih (columns_addColumn h sort.column), List.append_assoc]
    rfl

theorem columns_ofView (view : View) (sorts : List SortColumn) :
    (ofView view sorts).columns = view.needed sorts := by
  have hempty : empty.columns = [].eraseDups := List.eraseDups_nil.symm
  have hsorted := columns_addColumns (columns_addShowns hempty view.order) sorts
  rw [List.nil_append] at hsorted
  unfold ofView View.needed
  cases view.kind with
  | table => exact hsorted
  | cards => exact (columns_addShown _ _).trans (columns_addColumn hsorted coverKey)

end Layout

/-! ## Rows -/

/-- A cell under a new key comes last; one under an old key takes the place of the old one. -/
theorem Row.keys_insert (row : Row) (key : String) (value : Value) :
    (row.insert key value).keys = if key ∈ row.keys then row.keys else row.keys ++ [key] := by
  have hcells : ∀ cells : List (String × Value),
      (insertCell key value cells).map (·.1) =
        if key ∈ cells.map (·.1) then cells.map (·.1) else cells.map (·.1) ++ [key] := by
    intro cells
    induction cells with
    | nil => rfl
    | cons cell cells ih =>
      obtain ⟨k, v⟩ := cell
      rw [insertCell]
      by_cases hkey : k = key
      · subst hkey
        simp
      · have hne : key ≠ k := fun h => hkey h.symm
        simp only [beq_iff_eq, hkey, if_false, List.map_cons, List.mem_cons, hne, false_or, ih]
        split <;> rfl
  exact hcells row.cells

theorem Table.cellAt_set_of_ne {position other : Nat} (h : position ≠ other) (cells : List Value)
    (cell : Value) : cellAt (cells.set position cell) other = cellAt cells other := by
  unfold cellAt
  rw [List.getD_eq_getElem?_getD, List.getElem?_set_ne h, List.getD_eq_getElem?_getD]

namespace Definition

/-- The row with the cells of the given columns, each under the heading of its column. -/
def rowOfCells (definition : Definition) (columns : List String) (cell : String → Value) : Row :=
  columns.foldl (fun row column => row.insert (definition.heading column) (cell column)) Row.empty

/-- The keys of a row are the headings of its columns, each at its first place. -/
theorem keys_rowOfCells (definition : Definition) (columns : List String)
    (cell : String → Value) :
    (definition.rowOfCells columns cell).keys = (columns.map definition.heading).eraseDups := by
  have hfold : ∀ (columns : List String) (row : Row) (before : List String),
      row.keys = before.eraseDups →
      (columns.foldl (fun row column =>
        row.insert (definition.heading column) (cell column)) row).keys =
        (before ++ columns.map definition.heading).eraseDups := by
    intro columns
    induction columns with
    | nil =>
      intro row before hrow
      rw [List.map_nil, List.append_nil]
      exact hrow
    | cons column columns ih =>
      intro row before hrow
      rw [List.map_cons, List.append_cons]
      refine ih _ _ ?_
      rw [Row.keys_insert, eraseDups_concat, hrow]
      simp only [List.mem_eraseDups]
  exact hfold columns Row.empty [] rfl

/-- Each cell is taken once, and so it is still in its place when its turn comes. -/
theorem takeCells_eq (definition : Definition) (columns : List String) {positions : List Nat}
    (cells : List Value) (row : Row) (hdistinct : positions.Nodup) :
    definition.takeCells columns positions cells row =
      positions.foldl (fun row position =>
        row.insert (definition.heading (columns.getD position "")) (Table.cellAt cells position))
        row := by
  induction positions generalizing cells row with
  | nil => rfl
  | cons position positions ih =>
    obtain ⟨hnew, hdistinct⟩ := List.nodup_cons.mp hdistinct
    rw [takeCells, ih _ _ hdistinct, List.foldl_cons]
    refine List.foldl_ext _ _ _ fun row other hother => ?_
    have hne : position ≠ other := fun h => hnew (h ▸ hother)
    rw [Table.cellAt_set_of_ne hne]

/-- The row that a layout shows of the cells of its columns has one cell for each column asked
for. -/
theorem row_eq_rowOfCells {layout : Layout} {asked : List String} (h : layout.Shows asked)
    (definition : Definition) (cell : String → Value) :
    definition.row layout (layout.columns.map cell) =
      definition.rowOfCells asked.eraseDups cell := by
  have hcells : ∀ position ∈ layout.shown,
      Table.cellAt (layout.columns.map cell) position = cell (layout.columnAt position) := by
    intro position hposition
    have hinside := h.inside position hposition
    unfold Table.cellAt Layout.columnAt
    rw [List.getD_eq_getElem _ _ (by rwa [List.length_map]), List.getElem_map,
      List.getD_eq_getElem _ _ hinside]
  unfold row rowOfCells
  rw [takeCells_eq definition _ _ Row.empty h.shownOnce, ← h.shown, List.foldl_map]
  refine List.foldl_ext _ _ _ fun row position hposition => ?_
  rw [hcells position hposition]
  rfl

end Definition

end CorpusQuery
