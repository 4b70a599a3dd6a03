import CorpusQuery.Filter

/-!
# Views

A view shows the documents of a corpus that pass a filter, with some of their properties as columns.
-/

namespace CorpusQuery

/-- How a view is laid out. -/
inductive ViewKind where
  | table
  | cards
  deriving Repr, DecidableEq

/-- The word for a layout. -/
def ViewKind.name : ViewKind → String
  | .table => "table"
  | .cards => "cards"

/-- The layout with the given name. -/
def ViewKind.ofName? : String → Option ViewKind
  | "table" => some .table
  | "cards" => some .cards
  | _ => none

/-- An entry of the sort order of a view, as it is written. -/
structure SortEntry where
  property : String
  direction : String
  deriving Repr, DecidableEq

/-- A view: its name, layout and filter, the columns in the order in which they are asked for, and
the sort order. -/
structure View where
  name : String
  kind : ViewKind
  filter : Filter
  order : List String
  sorts : List SortEntry

end CorpusQuery
