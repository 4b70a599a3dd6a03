import CorpusQuery.Value.Json

/-!
# Rows

A row of a view: cells under column names, in the order in which the columns were first set.
-/

namespace CorpusQuery

/-- The cells of a row with their columns, each column once. -/
structure Row where
  cells : List (String × Value)
  deriving Inhabited

namespace Row

/-- The row without cells. -/
def empty : Row := ⟨[]⟩

/-- Puts `value` in the place of the first cell under `key`, or at the end if there is none. -/
def insertCell (key : String) (value : Value) : List (String × Value) → List (String × Value)
  | [] => [(key, value)]
  | (k, v) :: rest => if k == key then (k, value) :: rest else (k, v) :: insertCell key value rest

/-- Sets the cell under `key`, in place if there is one. -/
def insert (row : Row) (key : String) (value : Value) : Row :=
  ⟨insertCell key value row.cells⟩

/-- The cell under `key`. -/
def get? (row : Row) (key : String) : Option Value :=
  (row.cells.find? fun cell => cell.1 == key).map (·.2)

/-- The columns of the row, in order. -/
def keys (row : Row) : List String := row.cells.map (·.1)

/-- The number of cells. -/
def size (row : Row) : Nat := row.cells.length

/-- The row as a JSON object, in column order. -/
def toJson (row : Row) : Json := .obj (row.cells.map fun (key, value) => (key, value.toJson))

end Row

end CorpusQuery
