import CorpusQuery.Value.Text
import CorpusQuery.View.Layout

/-!
# Order of rows

A table is sorted by some of its columns, the first one counting most, and rows that agree in all of
them keep their order. A column of numbers is sorted by number, any other column by text.
-/

namespace CorpusQuery

/-- The cell that a view keeps of a value: a missing one is not a number, and what is no scalar
becomes its text. -/
def Value.cell : Value → Value
  | .null => .float (0.0 / 0.0)
  | value => if value.isPrimitive then value else .str value.text

/-- What a cell is sorted by. -/
inductive SortKey where
  | number (x : Float)
  | text (s : String)

namespace SortKey

/-- The key of a cell in a column that holds numbers only, or in any other column. -/
def ofCell (numeric : Bool) (cell : Value) : SortKey :=
  if numeric then
    match cell.number? with
    | some x => .number (if x.isNaN then 0 else x)
    | none => .number 0
  else
    match cell with
    | .null => .text ""
    | .float x => .text (if x.isNaN then "" else cell.text)
    | _ => .text cell.text

/-- The place of a number among all numbers; minus zero comes before zero. -/
def place (x : Float) : Int :=
  let bits := x.toBits.toNat
  if bits < Nat.pow 2 63 then bits else -(bits - Nat.pow 2 63 : Nat) - 1

/-- The order of keys. -/
def compare : SortKey → SortKey → Ordering
  | .number x, .number y => Ord.compare (place x) (place y)
  | .text s, .text t => Ord.compare s t
  | .number _, .text _ => .lt
  | .text _, .number _ => .gt

end SortKey

/-- A column of a table, by its position, with a direction. -/
structure SortStep where
  position : Nat
  direction : Direction
  deriving Repr, DecidableEq

namespace Table

/-- The cell at a position of a row. -/
def cellAt (row : List Value) (position : Nat) : Value := row.getD position .null

/-- Whether the column at a position holds numbers only. -/
def isNumericColumn (table : List (List Value)) (position : Nat) : Bool :=
  table.all fun row => (cellAt row position).isNumeric

/-- The keys of a row for the steps of a sort order. `numeric` says of each column whether it holds
numbers only. -/
def keysOf (numeric : List Bool) (plan : List SortStep) (row : List Value) : List SortKey :=
  plan.map fun step =>
    SortKey.ofCell (numeric.getD step.position true) (cellAt row step.position)

/-- The order of two rows by their keys; the first keys that differ decide. -/
def compareKeys : List SortStep → List SortKey → List SortKey → Ordering
  | step :: plan, k :: ks, l :: ls =>
    let first := match step.direction with
      | .ascending => k.compare l
      | .descending => l.compare k
    first.then (compareKeys plan ks ls)
  | _, _, _ => .eq

/-- Which of `width` columns hold numbers only. -/
def numericColumns (width : Nat) (table : List (List Value)) : List Bool :=
  (List.range width).map (isNumericColumn table)

/-- The rows of a table in the given sort order. -/
def sort (numeric : List Bool) (plan : List SortStep) (table : List (List Value)) :
    List (List Value) :=
  let keyed := table.map fun row => (keysOf numeric plan row, row)
  (keyed.mergeSort fun a b => (compareKeys plan a.1 b.1).isLE).map (·.2)

end Table

end CorpusQuery
