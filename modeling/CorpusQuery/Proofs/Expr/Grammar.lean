import CorpusQuery.Expr.Parser

/-!
# The grammar of expressions

The rules of the grammar as derivations: `Derives rule tokens e` says that the tokens derive from
the rule, with `e` as the tree. Rules that repeat an operator recurse on the left, so that the tree
of a chain of operators is the one joined from the left; the prefix operators recurse on the right.
-/

namespace CorpusQuery.Expr

open Token (Kind)

/-! ## Derivations -/

/-- A path: `NAME ("." NAME)*`. -/
inductive IsPath : List Kind → List String → Prop where
  | name (word : String) : IsPath [.name word] [word]
  | dot (word : String) {ts : List Kind} {path : List String} (h : IsPath ts path) :
    IsPath (.name word :: .dot :: ts) (word :: path)

/-- An argument: `path | STRING | NUMBER`. -/
inductive IsArgument : List Kind → Arg → Prop where
  | path {ts : List Kind} {path : List String} (h : IsPath ts path) : IsArgument ts (.attr path)
  | str (s : String) : IsArgument [.str s] (.literal (.str s))
  | number (value : Value) : IsArgument [.number value] (.literal value)

/-- One argument or more: `argument ("," argument)*`. -/
inductive IsArguments : List Kind → List Arg → Prop where
  | last {ts : List Kind} {arg : Arg} (h : IsArgument ts arg) : IsArguments ts [arg]
  | more {ts us : List Kind} {arg : Arg} {args : List Arg} (h : IsArgument ts arg)
    (hs : IsArguments us args) : IsArguments (ts ++ .comma :: us) (arg :: args)

/-- The rules that stand for expressions, lowest precedence first. -/
inductive Rule where
  | expression
  | conjunction
  | negation
  | comparison
  | sum
  | product
  | factor
  deriving DecidableEq

/-- The tokens derive from the rule, with the expression as the tree of the derivation. -/
inductive Derives : Rule → List Kind → Expr → Prop where
  -- expression := conjunction ("or" conjunction)*
  | expression {ts e} (h : Derives .conjunction ts e) : Derives .expression ts e
  | or {ts us l r} (left : Derives .expression ts l) (right : Derives .conjunction us r) :
    Derives .expression (ts ++ .or :: us) (.or l r)
  -- conjunction := negation ("and" negation)*
  | conjunction {ts e} (h : Derives .negation ts e) : Derives .conjunction ts e
  | and {ts us l r} (left : Derives .conjunction ts l) (right : Derives .negation us r) :
    Derives .conjunction (ts ++ .and :: us) (.and l r)
  -- negation := "!" negation | comparison
  | not {ts e} (h : Derives .negation ts e) : Derives .negation (.bang :: ts) (.not e)
  | negation {ts e} (h : Derives .comparison ts e) : Derives .negation ts e
  -- comparison := sum (OP sum)?
  | comparison {ts e} (h : Derives .sum ts e) : Derives .comparison ts e
  | compare {ts us l r} (op : CompareOp) (left : Derives .sum ts l) (right : Derives .sum us r) :
    Derives .comparison (ts ++ .compare op :: us) (.compare op l r)
  -- sum := product (("+" | "-") product)*
  | sum {ts e} (h : Derives .product ts e) : Derives .sum ts e
  | add {ts us l r op} (hop : op = .add ∨ op = .sub) (left : Derives .sum ts l)
    (right : Derives .product us r) : Derives .sum (ts ++ .arith op :: us) (.arith op l r)
  -- product := factor (("*" | "/") factor)*
  | product {ts e} (h : Derives .factor ts e) : Derives .product ts e
  | mul {ts us l r op} (hop : op = .mul ∨ op = .div) (left : Derives .product ts l)
    (right : Derives .factor us r) : Derives .product (ts ++ .arith op :: us) (.arith op l r)
  -- factor := "-" factor | NUMBER | STRING | "(" expression ")"
  | neg {ts e} (h : Derives .factor ts e) : Derives .factor (.arith .sub :: ts) (.neg e)
  | number (value : Value) : Derives .factor [.number value] (.literal value)
  | str (s : String) : Derives .factor [.str s] (.literal (.str s))
  | group {ts e} (h : Derives .expression ts e) : Derives .factor (.opening :: (ts ++ [.closing])) e
  -- factor := path | path "(" [argument ("," argument)*] ")"
  | attr {ts path} (h : IsPath ts path) : Derives .factor ts (.attr path)
  | callEmpty {ts receiver method} (h : IsPath ts (receiver ++ [method])) :
    Derives .factor (ts ++ [.opening, .closing]) (.call receiver method [])
  | call {ts us receiver method args} (h : IsPath ts (receiver ++ [method]))
    (hs : IsArguments us args) :
    Derives .factor (ts ++ .opening :: (us ++ [.closing])) (.call receiver method args)

/-! ## First tokens -/

theorem IsPath.starts {ts : List Kind} {path : List String} (h : IsPath ts path) :
    ∃ word rest, ts = .name word :: rest := by
  cases h with
  | name word => exact ⟨word, [], rfl⟩
  | dot word h => exact ⟨word, _, rfl⟩

theorem IsPath.ne_nil {ts : List Kind} {path : List String} (h : IsPath ts path) : path ≠ [] := by
  cases h <;> exact List.cons_ne_nil _ _

theorem IsArguments.starts {ts : List Kind} {args : List Arg} (h : IsArguments ts args) :
    ∃ kind rest, ts = kind :: rest ∧ kind ≠ .closing := by
  have hargument : ∀ {ts arg}, IsArgument ts arg → ∃ kind rest, ts = kind :: rest ∧
      kind ≠ .closing := by
    intro ts arg harg
    cases harg with
    | path hpath =>
      obtain ⟨word, rest, rfl⟩ := hpath.starts
      exact ⟨_, rest, rfl, Kind.noConfusion⟩
    | str s => exact ⟨_, [], rfl, Kind.noConfusion⟩
    | number value => exact ⟨_, [], rfl, Kind.noConfusion⟩
  cases h with
  | last h => exact hargument h
  | more h hs =>
    obtain ⟨kind, rest, rfl, hne⟩ := hargument h
    exact ⟨kind, _, rfl, hne⟩

/-- Whether the rule is one of those that an exclamation mark cannot start. -/
def Rule.isBelowNegation : Rule → Bool
  | .expression | .conjunction | .negation => false
  | .comparison | .sum | .product | .factor => true

theorem Derives.starts {rule : Rule} {ts : List Kind} {e : Expr} (h : Derives rule ts e) :
    ∃ kind rest, ts = kind :: rest ∧ (rule.isBelowNegation = true → kind ≠ .bang) := by
  induction h with
  | expression _ ih | conjunction _ ih =>
    obtain ⟨kind, rest, rfl, -⟩ := ih
    exact ⟨kind, rest, rfl, Bool.noConfusion⟩
  | or _ _ ih _ | and _ _ ih _ =>
    obtain ⟨kind, rest, rfl, -⟩ := ih
    exact ⟨kind, _, rfl, Bool.noConfusion⟩
  | not => exact ⟨_, _, rfl, Bool.noConfusion⟩
  | negation _ ih =>
    obtain ⟨kind, rest, rfl, -⟩ := ih
    exact ⟨kind, rest, rfl, Bool.noConfusion⟩
  | comparison _ ih | sum _ ih | product _ ih => exact ih
  | compare op _ _ ih _ | add _ _ _ ih _ | mul _ _ _ ih _ =>
    obtain ⟨kind, rest, rfl, hne⟩ := ih
    exact ⟨kind, _, rfl, hne⟩
  | neg | number | str | group => exact ⟨_, _, rfl, fun _ => Kind.noConfusion⟩
  | attr hpath =>
    obtain ⟨word, rest, rfl⟩ := hpath.starts
    exact ⟨_, rest, rfl, fun _ => Kind.noConfusion⟩
  | callEmpty hpath | call hpath =>
    obtain ⟨word, rest, rfl⟩ := hpath.starts
    exact ⟨_, _, rfl, fun _ => Kind.noConfusion⟩

/-! ## Rules and readers -/

namespace Rule

/-- The place of a rule in the order of precedence, tightest first. -/
def level : Rule → Nat
  | .factor => 0
  | .product => 1
  | .sum => 2
  | .comparison => 3
  | .negation => 4
  | .conjunction => 5
  | .expression => 6

/-- The rule of the operands that a rule joins; other rules stand for themselves. -/
def operand : Rule → Rule
  | .expression => .conjunction
  | .conjunction => .negation
  | .sum => .product
  | .product => .factor
  | rule => rule

/-- The operators by which a rule joins operands. -/
def op : Rule → Kind → Option (Expr → Expr → Expr)
  | .expression => orOp
  | .conjunction => andOp
  | .sum => sumOp
  | .product => productOp
  | _ => fun _ => none

/-- The reader of a rule; `bound` is at least the number of tokens. -/
def reader (bound : Nat) : Rule → Reader
  | .expression => Expr.expression (Expr.factor bound)
  | .conjunction => chain (Expr.negation (Expr.factor bound)) andOp
  | .negation => Expr.negation (Expr.factor bound)
  | .comparison => Expr.comparison (Expr.factor bound)
  | .sum => chain (chain (Expr.factor bound) productOp) sumOp
  | .product => chain (Expr.factor bound) productOp
  | .factor => Expr.factor bound

end Rule

/-- The tightest rule whose reader goes on with a token of the kind: seven if there is none. -/
def levelOf : Kind → Nat
  | .dot | .opening => 0
  | .arith .mul | .arith .div => 1
  | .arith .add | .arith .sub => 2
  | .compare _ => 3
  | .and => 5
  | .or => 6
  | _ => 7

/-- A rule whose derivations are chains of operands, joined from the left by operators. -/
structure Rule.IsChain (rule : Rule) : Prop where
  base {ts : List Kind} {e : Expr} (h : Derives rule.operand ts e) : Derives rule ts e
  join {kind : Kind} {build : Expr → Expr → Expr} {ts us : List Kind} {l r : Expr}
    (hop : rule.op kind = some build) (left : Derives rule ts l)
    (right : Derives rule.operand us r) : Derives rule (ts ++ kind :: us) (build l r)
  reader (bound : Nat) : rule.reader bound = chain (rule.operand.reader bound) rule.op
  tighter : rule.operand.level < rule.level
  level {kind : Kind} {build : Expr → Expr → Expr} (hop : rule.op kind = some build) :
    levelOf kind = rule.level

theorem isChain_expression : Rule.IsChain .expression where
  base := .expression
  join {kind} _ _ _ _ _ hop left right := by
    cases kind <;> cases hop
    exact .or left right
  reader _ := rfl
  tighter := by decide
  level {kind} _ hop := by
    cases kind <;> cases hop
    rfl

theorem isChain_conjunction : Rule.IsChain .conjunction where
  base := .conjunction
  join {kind} _ _ _ _ _ hop left right := by
    cases kind <;> cases hop
    exact .and left right
  reader _ := rfl
  tighter := by decide
  level {kind} _ hop := by
    cases kind <;> cases hop
    rfl

theorem sumOp_eq_some {kind : Kind} {build : Expr → Expr → Expr} (h : sumOp kind = some build) :
    ∃ op, kind = .arith op ∧ build = .arith op ∧ (op = .add ∨ op = .sub) := by
  unfold sumOp at h
  split at h
  · exact ⟨.add, rfl, (Option.some.inj h).symm, .inl rfl⟩
  · exact ⟨.sub, rfl, (Option.some.inj h).symm, .inr rfl⟩
  · cases h

theorem productOp_eq_some {kind : Kind} {build : Expr → Expr → Expr}
    (h : productOp kind = some build) :
    ∃ op, kind = .arith op ∧ build = .arith op ∧ (op = .mul ∨ op = .div) := by
  unfold productOp at h
  split at h
  · exact ⟨.mul, rfl, (Option.some.inj h).symm, .inl rfl⟩
  · exact ⟨.div, rfl, (Option.some.inj h).symm, .inr rfl⟩
  · cases h

theorem isChain_sum : Rule.IsChain .sum where
  base := .sum
  join hop left right := by
    obtain ⟨op, rfl, rfl, hsum⟩ := sumOp_eq_some hop
    exact .add hsum left right
  reader _ := rfl
  tighter := by decide
  level hop := by
    obtain ⟨op, rfl, -, rfl | rfl⟩ := sumOp_eq_some hop <;> rfl

theorem isChain_product : Rule.IsChain .product where
  base := .product
  join hop left right := by
    obtain ⟨op, rfl, rfl, hproduct⟩ := productOp_eq_some hop
    exact .mul hproduct left right
  reader _ := rfl
  tighter := by decide
  level hop := by
    obtain ⟨op, rfl, -, rfl | rfl⟩ := productOp_eq_some hop <;> rfl

end CorpusQuery.Expr
