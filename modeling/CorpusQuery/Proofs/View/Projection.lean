import CorpusQuery.Proofs.View.InsertionOrder
import CorpusQuery.Proofs.View.MissingValues

/-!
# From tables to rows

The layout of a view fits the view: its columns are distinct, it shows each column that is asked for
once, and it has all columns that the view is sorted by (`fits_ofView`). So no column to sort by is
lost (`sorts_plan`), and each cell of a row is taken from a place that nothing was taken from before
(`row_eq_ofInserts`). What comes into a row is a truth value, a number or a text
(`isScalar_rows`).
-/

namespace CorpusQuery

open Job

variable {σ : Type}

/-! ## Layouts -/

/-- A layout that a view can be computed and shown by: no column is there twice, what is shown are
columns of the layout, each once, in the order in which the view asks for them first, cards show a
cover after them unless they ask for it, and the columns to sort by are there. -/
structure Layout.Fits (layout : Layout) (view : View) (sorts : List SortColumn) : Prop where
  distinct : layout.columns.Nodup
  shownOnce : layout.shown.Nodup
  inside : ∀ position ∈ layout.shown, position < layout.columns.length
  shown : layout.shown.map layout.columnAt =
    if view.kind = .cards ∧ coverKey ∉ view.order then view.order.eraseDups ++ [coverKey]
    else view.order.eraseDups
  sorted : ∀ sort ∈ sorts, sort.column ∈ layout.columns

theorem View.eraseDups_asked (view : View) :
    view.asked.eraseDups =
      if view.kind = .cards ∧ coverKey ∉ view.order then view.order.eraseDups ++ [coverKey]
      else view.order.eraseDups := by
  unfold asked
  cases view.kind with
  | table => simp
  | cards =>
    rw [eraseDups_concat]
    by_cases hasked : coverKey ∈ view.order <;> simp [hasked]

namespace Layout

variable {layout : Layout} {view : View} {sorts : List SortColumn}

theorem column_mem_needed {sort : SortColumn} (h : sort ∈ sorts) :
    sort.column ∈ view.needed sorts := by
  have hsorted : sort.column ∈ view.order ++ sorts.map SortColumn.column :=
    List.mem_append_right _ (List.mem_map_of_mem h)
  unfold View.needed
  cases view.kind with
  | table => exact List.mem_eraseDups.mpr hsorted
  | cards => exact List.mem_eraseDups.mpr (List.mem_append_left _ hsorted)

theorem fits_ofView (view : View) (sorts : List SortColumn) : (ofView view sorts).Fits view sorts :=
  have h := shows_ofView view sorts
  { distinct := h.distinct
    shownOnce := h.shownOnce
    inside := h.inside
    shown := h.shown.trans view.eraseDups_asked
    sorted := fun _ hsort => columns_ofView view sorts ▸ column_mem_needed hsort }

/-! ## Plans -/

/-- A plan that sorts by all the given columns, in their order; if there are none, by the first one
shown, if something is shown. -/
structure Sorts (layout : Layout) (sorts : List SortColumn) (plan : List SortStep) : Prop where
  inside : ∀ step ∈ plan, step.position < layout.columns.length
  all : sorts ≠ [] →
    plan.map (fun step => SortColumn.mk (layout.columnAt step.position) step.direction) = sorts
  first : sorts = [] →
    ∀ position others, layout.shown = position :: others → plan = [⟨position, .ascending⟩]
  none : sorts = [] → layout.shown = [] → plan = []

/-- The step of a plan for a column. -/
def step? (layout : Layout) (sort : SortColumn) : Option SortStep :=
  (layout.position? sort.column).map fun position => { position, direction := sort.direction }

theorem Fits.step?_eq (h : layout.Fits view sorts) {sort : SortColumn} (hsort : sort ∈ sorts) :
    ∃ step, layout.step? sort = some step ∧ step.position < layout.columns.length ∧
      SortColumn.mk (layout.columnAt step.position) step.direction = sort := by
  obtain ⟨position, hposition, hinside, honly⟩ := position_spec h.distinct (h.sorted sort hsort)
  refine ⟨⟨position, sort.direction⟩, by rw [step?, hposition]; rfl, hinside, ?_⟩
  rw [(honly position hinside).mpr rfl]

/-- No column to sort by is dropped for want of a place. -/
theorem Fits.map_filterMap_step? (h : layout.Fits view sorts) :
    (sorts.filterMap layout.step?).map
      (fun step => SortColumn.mk (layout.columnAt step.position) step.direction) = sorts := by
  rw [List.map_filterMap]
  have hall : ∀ sort ∈ sorts, ((layout.step? sort).map fun step =>
      SortColumn.mk (layout.columnAt step.position) step.direction) = some sort := by
    intro sort hsort
    obtain ⟨step, hstep, -, hback⟩ := h.step?_eq hsort
    rw [hstep, Option.map_some, hback]
  rw [List.filterMap_congr hall, List.filterMap_some]

theorem Fits.sorts_plan (h : layout.Fits view sorts) : layout.Sorts sorts (layout.plan sorts) := by
  have hplan : layout.plan sorts = if (sorts.filterMap layout.step?).isEmpty
      then (layout.shown.take 1).map fun position => { position, direction := .ascending }
      else sorts.filterMap layout.step? := rfl
  have hback := h.map_filterMap_step?
  by_cases hsorts : sorts = []
  · have hdefault : layout.plan sorts =
        (layout.shown.take 1).map fun position => { position, direction := .ascending } := by
      rw [hplan, hsorts]
      rfl
    refine ⟨?_, fun hne => absurd hsorts hne, fun _ position others hshown => ?_,
      fun _ hshown => ?_⟩
    · intro step hstep
      rw [hdefault] at hstep
      obtain ⟨position, hposition, rfl⟩ := List.mem_map.mp hstep
      exact h.inside position (List.mem_of_mem_take hposition)
    · rw [hdefault, hshown]
      rfl
    · rw [hdefault, hshown]
      rfl
  · have hgiven : layout.plan sorts = sorts.filterMap layout.step? := by
      refine hplan.trans (if_neg fun hempty => hsorts ?_)
      rw [← hback, List.isEmpty_iff.mp hempty]
      rfl
    refine ⟨?_, fun _ => hgiven ▸ hback, fun hnone => absurd hnone hsorts,
      fun hnone => absurd hnone hsorts⟩
    intro step hstep
    rw [hgiven] at hstep
    obtain ⟨sort, hsort, hstep⟩ := List.mem_filterMap.mp hstep
    obtain ⟨_, hsome, hinside, -⟩ := h.step?_eq hsort
    rw [hstep] at hsome
    exact Option.some.inj hsome ▸ hinside

end Layout

/-! ## Cells -/

/-- The cells of a row after those at some positions have been taken. -/
def Table.without (positions : List Nat) (cells : List Value) : List Value :=
  positions.foldl (fun cells position => cells.set position .null) cells

/-- What was taken elsewhere leaves a cell as it was. -/
theorem Table.cellAt_without {positions : List Nat} {position : Nat} (h : position ∉ positions)
    (cells : List Value) : cellAt (without positions cells) position = cellAt cells position := by
  induction positions generalizing cells with
  | nil => rfl
  | cons first positions ih =>
    obtain ⟨hfirst, hothers⟩ := not_or.mp (mt List.mem_cons.mpr h)
    rw [without, List.foldl_cons, ← without, ih hothers, cellAt_set_of_ne (Ne.symm hfirst)]

namespace Definition

variable {definition : Definition} {layout : Layout} {view : View} {sorts : List SortColumn}

theorem takeCells_append (definition : Definition) (columns : List String)
    (before after : List Nat) (cells : List Value) (row : Row) :
    definition.takeCells columns (before ++ after) cells row =
      definition.takeCells columns after (Table.without before cells)
        (definition.takeCells columns before cells row) := by
  induction before generalizing cells row with
  | nil => rfl
  | cons position before ih => exact ih _ _

/-- A row that is made by taking cells out of a table holds what was in the table, and each cell is
there when it is taken. -/
structure TakesOnce (definition : Definition) (layout : Layout) (cells : List Value) : Prop where
  intact : ∀ before position after, layout.shown = before ++ position :: after →
    definition.row layout cells =
        definition.takeCells layout.columns (position :: after) (Table.without before cells)
          (definition.takeCells layout.columns before cells Row.empty) ∧
      Table.cellAt (Table.without before cells) position = Table.cellAt cells position
  row : definition.row layout cells =
    Row.ofInserts (layout.shown.map fun position =>
      (definition.heading (layout.columnAt position), Table.cellAt cells position))

theorem row_eq_ofInserts (h : layout.shown.Nodup) (definition : Definition) (cells : List Value) :
    definition.row layout cells =
      Row.ofInserts (layout.shown.map fun position =>
        (definition.heading (layout.columnAt position), Table.cellAt cells position)) := by
  rw [row, takeCells_eq definition _ cells Row.empty h, Row.ofInserts, List.foldl_map]
  rfl

theorem takesOnce (h : layout.shown.Nodup) (definition : Definition) (cells : List Value) :
    definition.TakesOnce layout cells where
  intact before position after hsplit := by
    rw [hsplit, List.nodup_append] at h
    have hnew : position ∉ before := fun hmem => h.2.2 position hmem position List.mem_cons_self rfl
    rw [row, hsplit, takeCells_append]
    exact ⟨rfl, Table.cellAt_without hnew cells⟩
  row := row_eq_ofInserts h definition cells

end Definition

/-! ## Scalars -/

/-- A value that a cell can show as it is: a truth value, a number or a text. -/
inductive Value.IsScalar : Value → Prop
  | bool (b : Bool) : IsScalar (.bool b)
  | int (i : Int64) : IsScalar (.int i)
  | float (x : Float) : IsScalar (.float x)
  | str (s : String) : IsScalar (.str s)

/-- Whether all cells of a row are scalars. -/
def Row.HasScalars (row : Row) : Prop := ∀ cell ∈ row.cells, cell.2.IsScalar

theorem Row.hasScalars_empty : empty.HasScalars := List.forall_mem_nil _

theorem Row.HasScalars.insert {row : Row} (h : row.HasScalars) (key : String) {value : Value}
    (hvalue : value.IsScalar) : (row.insert key value).HasScalars := by
  have hcells (cells : List (String × Value)) (h : ∀ cell ∈ cells, cell.2.IsScalar) :
      ∀ cell ∈ insertCell key value cells, cell.2.IsScalar := by
    induction cells with
    | nil => exact List.forall_mem_singleton.mpr hvalue
    | cons first cells ih =>
      obtain ⟨hfirst, hothers⟩ := List.forall_mem_cons.mp h
      rw [insertCell]
      split
      · exact List.forall_mem_cons.mpr ⟨hvalue, hothers⟩
      · exact List.forall_mem_cons.mpr ⟨hfirst, ih hothers⟩
  exact hcells row.cells h

namespace Definition

variable {definition : Definition} {snapshot : Snapshot} {view : View}

theorem isScalar_shownCell (doc : Document) (column : String) :
    (definition.shownCell snapshot doc column).IsScalar := by
  unfold shownCell
  cases ((definition.value snapshot doc column).run none).result with
  | error e => exact .str _
  | ok value => cases value <;> constructor

theorem hasScalars_rowOfCells (columns : List String) {cell : String → Value}
    (h : ∀ column, (cell column).IsScalar) : (definition.rowOfCells columns cell).HasScalars := by
  induction columns using List.reverseRecOn with
  | nil => exact Row.hasScalars_empty
  | append_singleton columns column ih =>
    rw [rowOfCells, List.foldl_concat]
    exact ih.insert _ (h column)

/-- The rows of a view hold scalars only. -/
theorem hasScalars_rows {rows : List Row} {s : σ}
    (h : ((definition.rows snapshot view).run s).result = .ok rows) :
    ∀ row ∈ rows, row.HasScalars := by
  intro row hrow
  obtain ⟨doc, -, rfl⟩ := List.mem_map.mp ((rows_perm h).1.mem_iff.mp hrow)
  exact hasScalars_rowOfCells _ (isScalar_shownCell doc)

end Definition

end CorpusQuery
