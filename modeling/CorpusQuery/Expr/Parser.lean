import CorpusQuery.Expr.Error

/-!
# Reading expressions

A recursive descent parser, one reader per rule of the grammar, lowest precedence first:

    expression := conjunction ("or" conjunction)*
    conjunction := negation ("and" negation)*
    negation   := "!" negation | comparison
    comparison := sum (OP sum)?
    sum        := product (("+" | "-") product)*
    product    := factor (("*" | "/") factor)*
    factor     := "-" factor | NUMBER | STRING | "(" expression ")"
                | path | path "(" [argument ("," argument)*] ")"
    argument   := path | STRING | NUMBER
    path       := NAME ("." NAME)*

Only `factor` leads back to `expression`, and it takes a token before it does. It therefore recurses
on a bound for the number of tokens that are left, and all other readers are given the reader of the
factors.
-/

namespace CorpusQuery

namespace Expr

/-- A syntax error and the position of the token it is about; `none` is the end of the text. -/
structure Stop where
  position : Option Nat
  problem : SyntaxError

/-- Reads an expression from the start of a list of tokens and gives the tokens after it. -/
abbrev Reader := List Token → Except Stop (Expr × List Token)

/-- The names after the first one of a path; `names` holds those read, in reverse. -/
def readPath (names : List String) : List Token → Except Stop (List String × List Token)
  | ⟨.dot, _⟩ :: ⟨.name name, _⟩ :: rest => readPath (name :: names) rest
  | ⟨.dot, _⟩ :: found :: _ => .error ⟨some found.position, .notName found.kind⟩
  | [⟨.dot, _⟩] => .error ⟨none, .nameAtEnd⟩
  | rest => .ok (names.reverse, rest)

/-- The argument at the start. -/
def readArgument : List Token → Except Stop (Arg × List Token)
  | [] => .error ⟨none, .argumentAtEnd⟩
  | ⟨.number value, _⟩ :: rest => .ok (.literal value, rest)
  | ⟨.str s, _⟩ :: rest => .ok (.literal (.str s), rest)
  | ⟨.name first, _⟩ :: rest =>
    match readPath [first] rest with
    | .ok (path, rest) => .ok (.attr path, rest)
    | .error stop => .error stop
  | found :: _ => .error ⟨some found.position, .notArgument found.kind⟩

/-- Takes one closing parenthesis. -/
def close : List Token → Except Stop (List Token)
  | ⟨.closing, _⟩ :: rest => .ok rest
  | found :: _ => .error ⟨some found.position, .expected .closing (some found.kind)⟩
  | [] => .error ⟨none, .expected .closing none⟩

/-- One argument or more, and the closing parenthesis; `bound` is at least the number of tokens. -/
def readArguments (bound : Nat) (tokens : List Token) : Except Stop (List Arg × List Token) :=
  match bound with
  | 0 => .error ⟨none, .argumentAtEnd⟩
  | bound + 1 =>
    match readArgument tokens with
    | .error stop => .error stop
    | .ok (arg, ⟨.comma, _⟩ :: rest) =>
      match readArguments bound rest with
      | .ok (args, rest) => .ok (arg :: args, rest)
      | .error stop => .error stop
    | .ok (arg, rest) => (close rest).map fun rest => ([arg], rest)

/-- The call of the method that is the last name of a path, after its opening parenthesis. -/
def readCall (path : List String) : Reader
  | ⟨.closing, _⟩ :: rest => .ok (.call path.dropLast (path.getLastD "") [], rest)
  | tokens =>
    (readArguments tokens.length tokens).map fun (args, rest) =>
      (.call path.dropLast (path.getLastD "") args, rest)

/-- The operands after `left`, each after one of the operators `op` knows, joined from the left. At
most `bound` of them are read. -/
def readChain (operand : Reader) (op : Token.Kind → Option (Expr → Expr → Expr)) (bound : Nat)
    (left : Expr) (tokens : List Token) : Except Stop (Expr × List Token) :=
  match bound, tokens with
  | bound + 1, token :: rest =>
    match op token.kind with
    | none => .ok (left, tokens)
    | some join =>
      match operand rest with
      | .ok (right, rest) => readChain operand op bound (join left right) rest
      | .error stop => .error stop
  | _, _ => .ok (left, tokens)

/-- Operands joined from the left by the operators that `op` knows. -/
def chain (operand : Reader) (op : Token.Kind → Option (Expr → Expr → Expr)) : Reader :=
    fun tokens =>
  match operand tokens with
  | .ok (left, rest) => readChain operand op rest.length left rest
  | .error stop => .error stop

/-- The operators of products. -/
def productOp : Token.Kind → Option (Expr → Expr → Expr)
  | .arith .mul => some (.arith .mul)
  | .arith .div => some (.arith .div)
  | _ => none

/-- The operators of sums. -/
def sumOp : Token.Kind → Option (Expr → Expr → Expr)
  | .arith .add => some (.arith .add)
  | .arith .sub => some (.arith .sub)
  | _ => none

/-- The operator of conjunctions. -/
def andOp : Token.Kind → Option (Expr → Expr → Expr)
  | .and => some .and
  | _ => none

/-- The operator of alternatives. -/
def orOp : Token.Kind → Option (Expr → Expr → Expr)
  | .or => some .or
  | _ => none

/-- A sum, and at most one comparison with another sum. -/
def comparison (factor : Reader) : Reader := fun tokens =>
  let sum := chain (chain factor productOp) sumOp
  match sum tokens with
  | .ok (left, ⟨.compare op, _⟩ :: rest) =>
    match sum rest with
    | .ok (right, rest) => .ok (.compare op left right, rest)
    | .error stop => .error stop
  | result => result

/-- A comparison after any number of negations. -/
def negation (factor : Reader) : Reader
  | ⟨.bang, _⟩ :: rest =>
    match negation factor rest with
    | .ok (inner, rest) => .ok (.not inner, rest)
    | .error stop => .error stop
  | tokens => comparison factor tokens

/-- An expression. -/
def expression (factor : Reader) : Reader :=
  chain (chain (negation factor) andOp) orOp

/-- An operand of a product; `bound` is at least the number of tokens. -/
def factor (bound : Nat) : Reader := fun tokens =>
  match bound, tokens with
  | bound + 1, ⟨.arith .sub, _⟩ :: rest =>
    match factor bound rest with
    | .ok (inner, rest) => .ok (.neg inner, rest)
    | .error stop => .error stop
  | bound + 1, ⟨.opening, _⟩ :: rest =>
    match expression (factor bound) rest with
    | .ok (inner, rest) => (close rest).map fun rest => (inner, rest)
    | .error stop => .error stop
  | _ + 1, ⟨.number value, _⟩ :: rest => .ok (.literal value, rest)
  | _ + 1, ⟨.str s, _⟩ :: rest => .ok (.literal (.str s), rest)
  | _ + 1, ⟨.name first, _⟩ :: rest =>
    match readPath [first] rest with
    | .ok (path, ⟨.opening, _⟩ :: rest) => readCall path rest
    | .ok (path, rest) => .ok (.attr path, rest)
    | .error stop => .error stop
  | _ + 1, found :: _ => .error ⟨some found.position, .unexpected found.kind⟩
  | _, _ => .error ⟨none, .valueAtEnd⟩

/-- The expression that a list of tokens is. -/
def ofTokens (tokens : List Token) : Except Stop Expr :=
  match tokens with
  | [] => .error ⟨some 0, .empty⟩
  | tokens =>
    match expression (factor tokens.length) tokens with
    | .ok (e, []) => .ok e
    | .ok (_, found :: _) => .error ⟨some found.position, .unexpected found.kind⟩
    | .error stop => .error stop

/-- The expression that a text is. -/
def compile (source : String) : Except CompileError Expr :=
  match tokenize source with
  | .error (position, problem) => .error ⟨source, position, .lone problem⟩
  | .ok tokens =>
    match ofTokens tokens with
    | .ok e => .ok e
    | .error stop => .error ⟨source, stop.position.getD source.utf8ByteSize, stop.problem⟩

end Expr

end CorpusQuery
