import CorpusQuery.Decimal.Layout
import CorpusQuery.Value.Basic

/-!
# The text of a value

`Value.text` is what a table cell or a message shows of a value. Strings stand for themselves;
inside lists and maps they are put in single quotes, with nothing escaped.
-/

namespace CorpusQuery.Value

/-- Doubles are written in full, whole numbers below `10 ^ 16` with a `.0`. -/
def numberLayout : Decimal.Layout where
  tie := .up
  plainFrom := none
  plainBelow := none
  pointZeroBelow := 16
  nan := "nan"
  infinity := "inf"

mutual

/-- The text of a value; a string or a path is put in quotes if `quotes` is set. -/
def textWith (quotes : Bool) : Value → String
  | .null => "None"
  | .bool true => "True"
  | .bool false => "False"
  | .int i => i.toInt.repr
  | .float x => numberLayout.write x
  | .str s => if quotes then "'" ++ s ++ "'" else s
  | .list items => "[" ++ String.intercalate ", " (itemTexts items) ++ "]"
  | .map entries => "\x7b" ++ String.intercalate ", " (entryTexts entries) ++ "\x7d"
  | .document path => if quotes then "'" ++ path ++ "'" else path
termination_by structural v => v

/-- The texts of the items of a list. -/
def itemTexts : List Value → List String
  | [] => []
  | item :: items => textWith true item :: itemTexts items
termination_by structural items => items

/-- The texts of the entries of a map. -/
def entryTexts : List (String × Value) → List String
  | [] => []
  | (key, item) :: entries => ("'" ++ key ++ "': " ++ textWith true item) :: entryTexts entries
termination_by structural entries => entries

end

/-- The text of a value. -/
def text (v : Value) : String := textWith false v

end CorpusQuery.Value
