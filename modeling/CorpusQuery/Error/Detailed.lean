import CorpusQuery.Error
import CorpusQuery.Text.Quoted

/-!
# Errors in detail

`Error.detailed` writes an error with all its parts, each under its name: the form in which a failed
command ends.
-/

namespace CorpusQuery

/-- A thing with one unnamed part. -/
def withPart (name part : String) : String := name ++ "(" ++ part ++ ")"

/-- A thing with named parts. -/
def withParts (name : String) (parts : List (String × String)) : String :=
  let fields := parts.map fun (n, part) => n ++ ": " ++ part
  name ++ " \x7b " ++ String.intercalate ", " fields ++ " \x7d"

/-- A text as a part. -/
def textPart (s : String) : String := Text.quoted s

/-- A compile error with all its parts. -/
def CompileError.detailed (e : CompileError) : String :=
  withParts "CompileError"
    [("expr", textPart e.source), ("position", e.position.repr),
      ("message", textPart e.problem.message)]

/-- An error with all its parts. -/
def Error.detailed : Error → String
  | .io fault => withPart "Io" (textPart fault.message)
  | .yaml e => withPart "Yaml" (textPart e.message)
  | .compile e => withPart "Compile" e.detailed
  | .eval e => withPart "Eval" (textPart e.message)
  | .field path reason =>
    withParts "FieldAccess" [("field", textPart path), ("reason", textPart reason.message)]
  | .cell column document source =>
    withParts "Cell"
      [("column", textPart column), ("document", textPart document), ("source", source.detailed)]
  | .definition problem => withPart "DefinitionParse" (textPart problem.message)
  | .sort property direction view =>
    withPart "SortSpec" (textPart (sortMessage property direction view))
  | .config e => withPart "Config" (textPart e.message)
  | .notFound kind name =>
    withParts "NotFound" [("kind", textPart kind.name), ("name", textPart name)]
  | .outsideRoot path => withPart "OutsideRoot" (textPart path)

end CorpusQuery
