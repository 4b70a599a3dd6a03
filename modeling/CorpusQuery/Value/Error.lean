import CorpusQuery.Value.Basic

/-!
# Failures of operations on values

`EvalError` lists the reasons for which an operation on values, or a method call, has no result;
`EvalError.message` words them.
-/

namespace CorpusQuery

/-- The arithmetic operators. -/
inductive ArithOp where
  | add
  | sub
  | mul
  | div
  deriving Repr, DecidableEq

/-- The sign of an arithmetic operator. -/
def ArithOp.symbol : ArithOp → String
  | .add => "+"
  | .sub => "-"
  | .mul => "*"
  | .div => "/"

/-- What is repeated by multiplication with a count. -/
inductive Repeated where
  | string
  | list
  deriving Repr, DecidableEq

/-- Why an expression has no value. -/
inductive EvalError where
  | noLength (kind : Value.Kind)
  | needleNotText (kind : Value.Kind)
  | notContainer (kind : Value.Kind)
  | unorderedNaN
  | notOrdered (left right : Value.Kind)
  | integerOverflow
  | badOperands (op : ArithOp) (left right : Value.Kind)
  | divisionByZero
  | badNegation (kind : Value.Kind)
  | repetitionTooLong (what : Repeated)
  | unknownMethod (name : String)
  | argumentCount (method : String) (expected given : Nat)
  | hasTagReceiver (kind : Value.Kind)
  | hasTagArgument (kind : Value.Kind)
  deriving Repr, DecidableEq

/-- The name of what is repeated. -/
def Repeated.name : Repeated → String
  | .string => "string"
  | .list => "list"

/-- The wording of an evaluation failure. -/
def EvalError.message : EvalError → String
  | .noLength kind => s!"object of type '{kind.name}' has no length"
  | .needleNotText kind => s!"'in <str>' requires str as left operand, not {kind.name}"
  | .notContainer kind => s!"argument of type '{kind.name}' does not support membership tests"
  | .unorderedNaN => "cannot order NaN values"
  | .notOrdered left right =>
    s!"ordering not supported between '{left.name}' and '{right.name}'"
  | .integerOverflow => "integer overflow"
  | .badOperands op left right =>
    s!"unsupported operand type(s) for {op.symbol}: '{left.name}' and '{right.name}'"
  | .divisionByZero => "division by zero"
  | .badNegation kind => s!"bad operand type for unary -: '{kind.name}'"
  | .repetitionTooLong what => s!"repeated {what.name} is too long"
  | .unknownMethod name => s!"unknown method `{name}`"
  | .argumentCount method expected given =>
    s!"{method} takes {expected} argument(s), {given} given"
  | .hasTagReceiver kind => s!"hasTag needs a file, not {kind.name}"
  | .hasTagArgument kind => s!"hasTag needs a string argument, not {kind.name}"

end CorpusQuery
