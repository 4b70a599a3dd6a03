import CorpusQuery.Text.Pieces
import CorpusQuery.Value.Error

/-!
# Equality, order and membership of values

Numbers and truth values compare as doubles, strings by their characters, lists element by element.
Equality is defined on all values; the order and membership are not.
-/

namespace CorpusQuery.Value

mutual

/-- Equality of values. Values of different kinds are equal only as numbers. -/
def equal : Value → Value → Bool
  | .null, .null => true
  | .str a, .str b => a == b
  | .list xs, .list ys => equalLists xs ys
  | .map xs, .map ys => equalEntries xs ys
  | .document a, .document b => a == b
  | a, b =>
    match a.number?, b.number? with
    | some x, some y => x == y
    | _, _ => false
termination_by structural a => a

/-- Equality of lists: of one length, and equal element by element. -/
def equalLists : List Value → List Value → Bool
  | [], [] => true
  | x :: xs, y :: ys => equal x y && equalLists xs ys
  | _, _ => false
termination_by structural xs => xs

/-- Equality of map entries: the same keys with equal values. -/
def equalEntries : List (String × Value) → List (String × Value) → Bool
  | [], [] => true
  | (k, x) :: xs, (l, y) :: ys => k == l && equal x y && equalEntries xs ys
  | _, _ => false
termination_by structural xs => xs

end

/-- The order of two doubles; there is none if one of them is not a number. -/
def compareNumbers (x y : Float) : Except EvalError Ordering :=
  if x < y then .ok .lt
  else if x == y then .ok .eq
  else if y < x then .ok .gt
  else .error .unorderedNaN

mutual

/-- The order of two values: two numbers, two strings or two lists. -/
def compare : Value → Value → Except EvalError Ordering
  | .str a, .str b => .ok (Ord.compare a b)
  | .list xs, .list ys => compareLists xs ys
  | a, b =>
    match a.number?, b.number? with
    | some x, some y => compareNumbers x y
    | _, _ => .error (.notOrdered a.kind b.kind)
termination_by structural a => a

/-- The order of the first elements that differ; if none do, the shorter list comes first. -/
def compareLists : List Value → List Value → Except EvalError Ordering
  | [], [] => .ok .eq
  | [], _ :: _ => .ok .lt
  | _ :: _, [] => .ok .gt
  | x :: xs, y :: ys =>
    match compare x y with
    | .ok .eq => compareLists xs ys
    | decided => decided
termination_by structural xs => xs

end

/-- Whether `needle` is a part of a string, an element of a list or a key of a map. -/
def contains (container needle : Value) : Except EvalError Bool :=
  match container with
  | .str s =>
    match needle with
    | .str part => .ok (Text.occursIn part.toList s.toList)
    | other => .error (.needleNotText other.kind)
  | .list items => .ok (items.any fun item => equal item needle)
  | .map entries =>
    match needle with
    | .str key => .ok (entries.any fun entry => entry.1 == key)
    | _ => .ok false
  | other => .error (.notContainer other.kind)

/-- The number of characters, elements or entries. -/
def length : Value → Except EvalError Nat
  | .str s => .ok s.length
  | .list items => .ok items.length
  | .map entries => .ok entries.length
  | other => .error (.noLength other.kind)

end CorpusQuery.Value
