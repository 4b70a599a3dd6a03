import CorpusQuery.Dictionary

/-!
# Values

What expressions compute and documents hold: the eight kinds of `Value`, which of them count as
true, which of them are numbers, and their lengths.
-/

namespace CorpusQuery

/-- A dynamic value. The entries of a map are in increasing order of their keys. A document stands
for the file under evaluation, by its path below the corpus root. -/
inductive Value where
  | null
  | bool (b : Bool)
  | int (i : Int64)
  | float (x : Float)
  | str (s : String)
  | list (items : List Value)
  | map (entries : List (String × Value))
  | document (path : String)
  deriving Inhabited

namespace Value

/-- The kinds of values. -/
inductive Kind where
  | null
  | bool
  | int
  | float
  | str
  | list
  | map
  | document
  deriving Repr, DecidableEq

/-- The name under which messages speak of a kind. -/
def Kind.name : Kind → String
  | .null => "null"
  | .bool => "bool"
  | .int => "int"
  | .float => "float"
  | .str => "str"
  | .list => "list"
  | .map => "map"
  | .document => "file"

/-- The kind of a value. -/
def kind : Value → Kind
  | .null => .null
  | .bool _ => .bool
  | .int _ => .int
  | .float _ => .float
  | .str _ => .str
  | .list _ => .list
  | .map _ => .map
  | .document _ => .document

/-- Whether a value counts as true: null, false, zero and what is empty do not. -/
def isTruthy : Value → Bool
  | .null => false
  | .bool b => b
  | .int i => i != 0
  | .float x => x != 0
  | .str s => !s.isEmpty
  | .list items => !items.isEmpty
  | .map entries => !entries.isEmpty
  | .document _ => true

/-- Whether a value is an integer or a float. -/
def isNumeric : Value → Bool
  | .int _ | .float _ => true
  | _ => false

/-- Whether a view stores the value as it is. -/
def isPrimitive : Value → Bool
  | .list _ | .map _ | .document _ => false
  | _ => true

/-- The truth values as the integers zero and one. -/
def ofTruth (b : Bool) : Int64 := if b then 1 else 0

/-- The integer a value takes part in integer arithmetic with. -/
def integer? : Value → Option Int64
  | .int i => some i
  | .bool b => some (ofTruth b)
  | _ => none

/-- The double nearest to an integer. -/
def floatOfInt (i : Int64) : Float := Float.ofInt i.toInt

/-- The number a value compares and computes as. -/
def number? : Value → Option Float
  | .int i => some (floatOfInt i)
  | .float x => some x
  | .bool b => some (floatOfInt (ofTruth b))
  | _ => none

/-- The text of a string value. -/
def text? : Value → Option String
  | .str s => some s
  | _ => none

/-- The map with the given entries; of entries with one key the last counts. -/
def ofEntries (entries : List (String × Value)) : Value := .map (Dictionary.ofList entries)

end Value

end CorpusQuery
