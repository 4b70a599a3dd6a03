import CorpusQuery.Error
import CorpusQuery.Value.Arithmetic
import CorpusQuery.Value.Relations
import CorpusQuery.Value.Text

/-!
# Evaluation of expressions

`Expr.evaluate` computes the value of an expression in a `Scope`, which answers for the document at
hand. The scope works in a monad of its own: looking up a property may read the document, report
something, or fail. Evaluation asks it in a fixed order, from left to right, and `and` and `or`
leave out a right side that does not count.
-/

namespace CorpusQuery

/-- What an expression can ask about the document it is evaluated for. -/
structure Scope (m : Type → Type) where
  /-- The value at a property path. -/
  property : List String → m Value
  /-- The tags of the document, without leading `#`. -/
  tags : m (List String)

/-- An operation on values as a step of an evaluation. -/
def liftEval {m : Type → Type} [Monad m] [MonadExceptOf Error m] {α : Type} :
    Except EvalError α → m α
  | .ok a => pure a
  | .error e => throw (.eval e)

namespace Expr

/-- The outcome of a comparison. -/
def compareValues (op : CompareOp) (left right : Value) : Except EvalError Bool :=
  match op with
  | .eq => .ok (left.equal right)
  | .ne => .ok !(left.equal right)
  | .lt => (left.compare right).map (· == .lt)
  | .le => (left.compare right).map (· != .gt)
  | .gt => (left.compare right).map (· == .gt)
  | .ge => (left.compare right).map (· != .lt)
  | .isIn => right.contains left
  | .notIn => (right.contains left).map (!·)

/-- The outcome of an arithmetic operation. -/
def arithValues (op : ArithOp) (left right : Value) : Except EvalError Value :=
  match op with
  | .add => left.add right
  | .sub => left.sub right
  | .mul => left.mul right
  | .div => left.div right

/-- Whether the container holds one of the values; those after the first that it holds do not
matter. -/
def containsAny (container : Value) : List Value → Except EvalError Bool
  | [] => .ok false
  | needle :: needles =>
    match container.contains needle with
    | .ok false => containsAny container needles
    | decided => decided

/-- The text without the `#` at its start. -/
def dropHashes (s : String) : String :=
  String.ofList (s.toList.dropWhile (· == '#'))

section

variable {m : Type → Type} [Monad m] [MonadExceptOf Error m]

/-- The value of an argument. -/
def Arg.evaluate (scope : Scope m) : Arg → m Value
  | .literal value => pure value
  | .attr path => scope.property path

/-- Whether the document has the tag. -/
def hasTag (scope : Scope m) (target tag : Value) : m Bool :=
  match target, tag with
  | .document _, .str s => do
    let tags ← scope.tags
    pure (tags.contains (dropHashes s))
  | .document _, other => liftEval (.error (.hasTagArgument other.kind))
  | other, _ => liftEval (.error (.hasTagReceiver other.kind))

/-- The outcome of a method on the value it is called on and its arguments. -/
def applyMethod (scope : Scope m) (name : String) (target : Value) (args : List Value) : m Bool :=
  match name with
  | "contains" =>
    match args with
    | [needle] => liftEval (target.contains needle)
    | _ => liftEval (.error (.argumentCount name 1 args.length))
  | "containsAny" => liftEval (containsAny target args)
  | "isEmpty" =>
    match args with
    | [] => liftEval (target.length.map (· == 0))
    | _ => liftEval (.error (.argumentCount name 0 args.length))
  | "startsWith" =>
    match args with
    | [start] => pure (start.text.toList.isPrefixOf target.text.toList)
    | _ => liftEval (.error (.argumentCount name 1 args.length))
  | "hasTag" =>
    match args with
    | [tag] => hasTag scope target tag
    | _ => liftEval (.error (.argumentCount name 1 args.length))
  | _ => liftEval (.error (.unknownMethod name))

/-- The value of an expression. -/
def evaluate (scope : Scope m) : Expr → m Value
  | .literal value => pure value
  | .attr path => scope.property path
  | .call receiver name args => do
    let target ← scope.property receiver
    let args ← args.mapM (Arg.evaluate scope)
    let result ← applyMethod scope name target args
    pure (.bool result)
  | .compare op left right => do
    let left ← evaluate scope left
    let right ← evaluate scope right
    let result ← liftEval (compareValues op left right)
    pure (.bool result)
  | .arith op left right => do
    let left ← evaluate scope left
    let right ← evaluate scope right
    liftEval (arithValues op left right)
  | .neg inner => do
    let value ← evaluate scope inner
    liftEval value.neg
  | .not inner => do
    let value ← evaluate scope inner
    pure (.bool !value.isTruthy)
  | .and left right => do
    let value ← evaluate scope left
    if value.isTruthy then evaluate scope right else pure value
  | .or left right => do
    let value ← evaluate scope left
    if value.isTruthy then pure value else evaluate scope right

/-- Whether the value of an expression counts as true. -/
def check (scope : Scope m) (e : Expr) : m Bool := do
  let value ← evaluate scope e
  pure value.isTruthy

end

end Expr

end CorpusQuery
