import CorpusQuery.Expr.Token

/-!
# Syntax errors

`SyntaxError` lists what can be wrong with the text of an expression, `CompileError` adds the text
and the place.
-/

namespace CorpusQuery

/-- What is wrong at one place of an expression. What was found is `none` at the end. -/
inductive SyntaxError where
  | lone (problem : LexError)
  | empty
  | unexpected (found : Token.Kind)
  | valueAtEnd
  | nameAtEnd
  | argumentAtEnd
  | notName (found : Token.Kind)
  | notArgument (found : Token.Kind)
  | expected (wanted : Token.Kind) (found : Option Token.Kind)

/-- The wording of a syntax error. -/
def SyntaxError.message : SyntaxError → String
  | .lone problem => problem.message
  | .empty => "empty expression"
  | .unexpected found => s!"unexpected {found.describe}"
  | .valueAtEnd => "expected a value but reached end of expression"
  | .nameAtEnd => "expected a name after `.` but reached end of expression"
  | .argumentAtEnd => "expected a method argument but reached end of expression"
  | .notName found => s!"expected a name, found {found.describe}"
  | .notArgument found =>
    s!"method arguments must be names, strings or numbers, found {found.describe}"
  | .expected wanted found =>
    let shown := (found.map Token.Kind.describe).getD "end of expression"
    s!"expected {wanted.describe}, found {shown}"

/-- Why a text is not an expression: the text, the place of the trouble as an offset in bytes, and
what is wrong there. -/
structure CompileError where
  source : String
  position : Nat
  problem : SyntaxError

/-- The wording of a compile error. -/
def CompileError.message (e : CompileError) : String :=
  s!"could not compile `{e.source}` near byte {e.position}: {e.problem.message}"

end CorpusQuery
