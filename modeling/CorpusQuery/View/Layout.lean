import CorpusQuery.View.Basic

/-!
# Layouts

The columns that are computed for a view, each once, and which of them are shown. Columns by which
the view is sorted are computed even if they are not shown.
-/

namespace CorpusQuery

/-- The directions in which a view can be sorted. -/
inductive Direction where
  | ascending
  | descending
  deriving Repr, DecidableEq

/-- The direction with the given name. -/
def Direction.ofName? : String → Option Direction
  | "ASC" => some .ascending
  | "DESC" => some .descending
  | _ => none

/-- A column by which a view is sorted. -/
structure SortColumn where
  column : String
  direction : Direction
  deriving Repr, DecidableEq

/-- The columns of a view, and the positions among them of those that are shown, in order. -/
structure Layout where
  columns : List String
  shown : List Nat
  deriving Repr, DecidableEq

namespace Layout

/-- The layout without columns. -/
def empty : Layout := ⟨[], []⟩

/-- The position of a column. -/
def position? (layout : Layout) (column : String) : Option Nat :=
  layout.columns.findIdx? (· == column)

/-- The layout in which a column is computed. -/
def addColumn (layout : Layout) (column : String) : Layout :=
  if layout.columns.contains column then layout
  else { layout with columns := layout.columns ++ [column] }

/-- The layout in which a column is computed and shown. -/
def addShown (layout : Layout) (column : String) : Layout :=
  let layout := layout.addColumn column
  match layout.position? column with
  | some i =>
    if layout.shown.contains i then layout else { layout with shown := layout.shown ++ [i] }
  | none => layout

/-- The layout of a view with the given sort order. Cards show a cover after the columns asked
for. -/
def ofView (view : View) (sorts : List SortColumn) : Layout :=
  let asked := view.order.foldl addShown empty
  let sorted := sorts.foldl (fun layout sort => layout.addColumn sort.column) asked
  match view.kind with
  | .table => sorted
  | .cards => sorted.addShown coverKey

end Layout

end CorpusQuery
