import CorpusQuery.Definition
import CorpusQuery.Definition.Shape

/-!
# Views of definitions

The section of a definition that lists views. A view needs a name; every other part has a default.
-/

namespace CorpusQuery

namespace SortEntry

/-- The direction of an entry that names none. -/
def defaultDirection : String := "ASC"

/-- The part of a sort entry under a key. -/
def part? (key : String) (node : Yaml.Node) : Option String :=
  match node.untagged with
  | .mapping entries => (Yaml.Node.lookup? key entries).map Yaml.Node.describe
  | _ => none

/-- The sort entries of a view; those without a property are left out. -/
def ofNodes {σ : Type} (corpus : Corpus) (view : String) : List Yaml.Node → Job σ (List SortEntry)
  | [] => pure []
  | item :: items =>
    match part? "property" item with
    | some property => do
      let direction := (part? "direction" item).getD defaultDirection
      let entries ← ofNodes corpus view items
      pure ({ property, direction } :: entries)
    | none => do
      corpus.reject (.sortWithoutProperty item.describe view)
      ofNodes corpus view items

end SortEntry

namespace View

variable {σ : Type}

/-- The layout of a view; an unknown one is a table. -/
def readKind (corpus : Corpus) (view : String) : Option Yaml.Node → Job σ ViewKind
  | none => pure .table
  | some node =>
    match node.string?.bind ViewKind.ofName? with
    | some kind => pure kind
    | none =>
      let problem := ShapeProblem.viewKind node.describe
      if corpus.strictDefinitions then throw (.definition problem)
      else do
        corpus.notify .warning s!"view {view} is shown as a table" problem.message
        pure .table

/-- The filter of a view. -/
def readFilter (corpus : Corpus) : Option Yaml.Node → Job σ Filter
  | none => pure .trivial
  | some node => Filter.ofNode corpus node

/-- The columns that a view asks for. -/
def readOrder (corpus : Corpus) (view : String) : Option Yaml.Node → Job σ (List String)
  | none | some .null => pure []
  | some (.sequence items) => pure (items.map Yaml.Node.describe)
  | some node => do
    corpus.reject (.orderNotList view)
    pure [node.describe]

/-- The sort order of a view. -/
def readSorts (corpus : Corpus) (view : String) : Option Yaml.Node → Job σ (List SortEntry)
  | none | some .null => pure []
  | some (.sequence items) => SortEntry.ofNodes corpus view items
  | some _ => do
    corpus.reject (.sortNotList view)
    pure []

/-- The view at a position of the list of views, unless it is malformed. -/
def ofNode (corpus : Corpus) (position : Nat) : Yaml.Node → Job σ (Option View)
  | .mapping entries =>
    match Yaml.Node.lookup? "name" entries with
    | none => do
      corpus.reject (.viewWithoutName position)
      pure none
    | some node => do
      let name := node.describe
      let kind ← readKind corpus name (Yaml.Node.lookup? "type" entries)
      let filter ← readFilter corpus (Yaml.Node.lookup? "filters" entries)
      let order ← readOrder corpus name (Yaml.Node.lookup? "order" entries)
      let sorts ← readSorts corpus name (Yaml.Node.lookup? "sort" entries)
      pure (some { name, kind, filter, order, sorts })
  | _ => do
    corpus.reject (.viewNotMapping position)
    pure none

/-- The views of a list, which starts at a position; malformed ones are left out. -/
def ofNodes (corpus : Corpus) (position : Nat) : List Yaml.Node → Job σ (List View)
  | [] => pure []
  | item :: items => do
    let view ← ofNode corpus position item
    let views ← ofNodes corpus (position + 1) items
    pure (view.toList ++ views)

end View

namespace Definition

/-- The section that lists views. -/
def viewsSection {σ : Type} (corpus : Corpus) : Yaml.Node → Job σ (List View)
  | .null => pure []
  | .sequence items => View.ofNodes corpus 0 items
  | _ => do
    corpus.reject .viewsNotList
    pure []

end Definition

end CorpusQuery
