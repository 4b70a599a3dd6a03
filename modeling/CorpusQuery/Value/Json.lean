import CorpusQuery.Decimal.Layout
import CorpusQuery.Json
import CorpusQuery.Value.Basic

/-!
# Values as JSON

Numbers that JSON cannot hold become `null`, a document becomes its path.
-/

namespace CorpusQuery.Value

/-- Doubles are written without an exponent from `1e-5` to below `1e16`; whole ones end in `.0`. -/
def jsonNumberLayout : Decimal.Layout where
  tie := .even
  plainFrom := some (-5)
  plainBelow := some 16
  pointZeroBelow := 16
  nan := "null"
  infinity := "null"

/-- A double as JSON. -/
def floatToJson (x : Float) : Json :=
  match Decimal.classify x with
  | .nan | .infinite _ => .null
  | _ => .number (jsonNumberLayout.write x)

mutual

/-- A value as JSON. -/
def toJson : Value → Json
  | .null => .null
  | .bool b => .bool b
  | .int i => .number i.toInt.repr
  | .float x => floatToJson x
  | .str s => .str s
  | .list items => .arr (itemsToJson items)
  | .map entries => .obj (entriesToJson entries)
  | .document path => .str path
termination_by structural v => v

/-- The items of a list as JSON. -/
def itemsToJson : List Value → List Json
  | [] => []
  | item :: items => toJson item :: itemsToJson items
termination_by structural items => items

/-- The entries of a map as JSON. -/
def entriesToJson : List (String × Value) → List (String × Json)
  | [] => []
  | (key, item) :: entries => (key, toJson item) :: entriesToJson entries
termination_by structural entries => entries

end

end CorpusQuery.Value
