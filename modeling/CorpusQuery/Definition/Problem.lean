/-!
# Malformed definitions

The ways in which the sections of a definition can have the wrong shape. A strict corpus refuses
such a definition, a lenient one warns and goes on without the malformed part.
-/

namespace CorpusQuery

/-- A part of a definition that does not have the shape it should have. -/
inductive ShapeProblem where
  | topLevel (path : String) (found : String)
  | filterList (operator : String)
  | filterOperator (operator : String)
  | filterKeys (keys : List String)
  | filterForm (found : String)
  | formulasNotMapping
  | badProperties (reason : String)
  | viewsNotList
  | viewNotMapping (position : Nat)
  | viewWithoutName (position : Nat)
  | viewKind (found : String)
  | orderNotList (view : String)
  | sortNotList (view : String)
  | sortWithoutProperty (entry view : String)
  deriving Repr, DecidableEq

/-- The wording of a shape problem. -/
def ShapeProblem.message : ShapeProblem → String
  | .topLevel path found => s!"{path}: expected a mapping at the top level, found {found}"
  | .filterList operator => s!"expected a list of filters under `{operator}`"
  | .filterOperator operator => s!"unknown filter operator `{operator}`"
  | .filterKeys keys =>
    "a filter mapping needs exactly one key, found [" ++ String.intercalate ", " keys ++ "]"
  | .filterForm found => s!"unsupported filter `{found}`"
  | .formulasNotMapping => "`formulas` must be a mapping"
  | .badProperties reason => s!"bad `properties` section: {reason}"
  | .viewsNotList => "`views` must be a list"
  | .viewNotMapping position => s!"view #{position} is not a mapping"
  | .viewWithoutName position => s!"view #{position} has no name"
  | .viewKind found => s!"unknown view type `{found}`"
  | .orderNotList view => s!"order of view {view} must be a list"
  | .sortNotList view => s!"sort of view {view} must be a list"
  | .sortWithoutProperty entry view => s!"sort entry `{entry}` of view {view} has no property"

end CorpusQuery
