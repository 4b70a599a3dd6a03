import CorpusQuery.Definition
import CorpusQuery.View.Order

/-!
# Sort orders of views

Which of the sort entries of a view count, and what a view without one is sorted by. An entry counts
if it names a column and a direction; a corpus that is strict about definitions refuses any other
entry.
-/

namespace CorpusQuery.Definition

variable {σ : Type}

/-- Whether a property can be a column. -/
def isColumn (definition : Definition) (property : String) : Bool :=
  match Text.splitString '.' property with
  | ["formula", name] => (definition.formula? name).isSome
  | ["file", field] => (FileField.ofName? field).isSome
  | [name] => name != ""
  | _ => false

/-- The column and direction that a sort entry stands for. -/
def sortColumn? (definition : Definition) (entry : SortEntry) : Option SortColumn :=
  match Direction.ofName? entry.direction with
  | some direction =>
    if definition.isColumn entry.property then some { column := entry.property, direction }
    else none
  | none => none

/-- The sort entries of a view that count. -/
def sortColumns (definition : Definition) (corpus : Corpus) (view : String) :
    List SortEntry → Job σ (List SortColumn)
  | [] => pure []
  | entry :: entries =>
    match definition.sortColumn? entry with
    | some sort => do
      let sorts ← definition.sortColumns corpus view entries
      pure (sort :: sorts)
    | none => do
      if corpus.strictDefinitions then throw (.sort entry.property entry.direction view)
      else
        corpus.notify .warning "sort entry dropped"
          (Error.sortMessage entry.property entry.direction view)
        definition.sortColumns corpus view entries

/-- The columns to sort by. If no sort entry counts, it is the first one shown. -/
def sortPlan (corpus : Corpus) (view : View) (layout : Layout) (sorts : List SortColumn) :
    Job σ (List SortStep) := do
  let plan := sorts.filterMap fun sort =>
    (layout.position? sort.column).map fun position => { position, direction := sort.direction }
  if !plan.isEmpty then pure plan
  else
    if !view.sorts.isEmpty then
      corpus.notify .warning "view is not sorted" s!"no usable sort entry in view {view.name}"
    match layout.shown with
    | [] => pure []
    | position :: _ =>
      let column := layout.columns.getD position ""
      corpus.notify .info s!"view {view.name} has no sort" s!"sorting by {column}"
      pure [{ position, direction := .ascending }]

end CorpusQuery.Definition
