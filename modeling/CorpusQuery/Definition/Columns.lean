import CorpusQuery.Definition
import CorpusQuery.Definition.Shape

/-!
# Columns of definitions

The section of a definition that describes columns. Every column has a name, and its description is
a mapping with text keys or nothing; one mistake makes the whole section bad.
-/

namespace CorpusQuery

namespace Yaml.Node

mutual

/-- Whether no part of a node has a local tag. -/
def isTagFree : Node → Bool
  | .sequence items => areTagFree items
  | .mapping entries => entriesAreTagFree entries
  | .tagged _ _ => false
  | _ => true
termination_by structural node => node

/-- Whether no item of a sequence has a local tag. -/
def areTagFree : List Node → Bool
  | [] => true
  | item :: items => isTagFree item && areTagFree items
termination_by structural items => items

/-- Whether no key and no value of a mapping has a local tag. -/
def entriesAreTagFree : List (Node × Node) → Bool
  | [] => true
  | (key, value) :: entries => isTagFree key && isTagFree value && entriesAreTagFree entries
termination_by structural entries => entries

end

end Yaml.Node

namespace ColumnInfo

/-- The entry that holds the heading of a column. -/
def headingKey : String := "displayName"

/-- The heading of a column: a text, or nothing. -/
def readHeading : Yaml.Node → Except String (Option String)
  | .null => .ok none
  | node =>
    match node.string? with
    | some heading => .ok (some heading)
    | none => .error s!"the heading of a column must be a string, found {node.describe}"

/-- The description of a column from its entries. `heading` holds the heading once it has been
read. -/
def ofEntries (heading : Option (Option String)) (others : Dictionary Value) :
    List (Yaml.Node × Yaml.Node) → Except String ColumnInfo
  | [] => .ok { heading := heading.join, others }
  | (key, value) :: entries =>
    match key.string? with
    | none => .error s!"a column entry must have a string as its key, found {key.describe}"
    | some name =>
      if name == headingKey then
        if heading.isSome then .error "a column has two headings"
        else do ofEntries (some (← readHeading value)) others entries
      else if value.isTagFree then
        ofEntries heading (Dictionary.insert name value.toValue others) entries
      else .error s!"the entry {name} of a column has a tag"

/-- The description of a column; nothing is an empty one. -/
def ofNode (node : Yaml.Node) : Except String ColumnInfo :=
  match node.untagged with
  | .mapping entries => ofEntries none [] entries
  | .null => .ok { heading := none, others := [] }
  | other => .error s!"a column must be described by a mapping, found {other.describe}"

end ColumnInfo

namespace Definition

/-- The descriptions of columns. -/
def readColumns (columns : Dictionary ColumnInfo) :
    List (Yaml.Node × Yaml.Node) → Except String (Dictionary ColumnInfo)
  | [] => .ok columns
  | (key, value) :: entries =>
    match key.string? with
    | none => .error s!"a column must have a string as its name, found {key.describe}"
    | some name => do
      readColumns (Dictionary.insert name (← ColumnInfo.ofNode value) columns) entries

/-- The section that describes columns; a bad one describes none. -/
def columnsSection {σ : Type} (corpus : Corpus) (node : Yaml.Node) :
    Job σ (Dictionary ColumnInfo) :=
  let read : Except String (Dictionary ColumnInfo) := match node.untagged with
    | .null => .ok []
    | .mapping entries => readColumns [] entries
    | other => .error s!"expected a mapping, found {other.describe}"
  match read with
  | .ok columns => pure columns
  | .error reason => do
    corpus.reject (.badProperties reason)
    pure []

end Definition

end CorpusQuery
