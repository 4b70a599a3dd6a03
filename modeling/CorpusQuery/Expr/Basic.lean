import CorpusQuery.Value.Error

/-!
# Expressions

The syntax trees of the expression language of filters and formulas.
-/

namespace CorpusQuery

/-- The comparison operators. -/
inductive CompareOp where
  | eq
  | ne
  | lt
  | le
  | gt
  | ge
  | isIn
  | notIn
  deriving Repr, DecidableEq

/-- The sign of a comparison operator. -/
def CompareOp.symbol : CompareOp → String
  | .eq => "=="
  | .ne => "!="
  | .lt => "<"
  | .le => "<="
  | .gt => ">"
  | .ge => ">="
  | .isIn => "in"
  | .notIn => "not in"

/-- An argument of a method: a constant, or the property at a path. -/
inductive Arg where
  | literal (value : Value)
  | attr (path : List String)
  deriving Inhabited

/-- An expression. A call names the property it asks, by its path, the method and the arguments. -/
inductive Expr where
  | literal (value : Value)
  | attr (path : List String)
  | call (receiver : List String) (method : String) (args : List Arg)
  | compare (op : CompareOp) (left right : Expr)
  | arith (op : ArithOp) (left right : Expr)
  | neg (inner : Expr)
  | not (inner : Expr)
  | and (left right : Expr)
  | or (left right : Expr)
  deriving Inhabited

end CorpusQuery
