import CorpusQuery.Expr.Token

/-!
# Printing expressions

The trees that can be printed, and their texts. A tree is printed with each operand in parentheses;
a text of a tree spells the tokens, with any blanks between them (`Prints`). A number may be written
with zeros in front, and a string with any of its escapes.
-/

namespace CorpusQuery

open Token (Kind)

namespace Expr

/-! ## Trees that can be printed -/

/-- A name: letters, digits and underscores, none of the reserved words, and no digit of ASCII in
front. -/
structure IsWord (word : String) : Prop where
  nonempty : word.toList ≠ []
  chars : ∀ c ∈ word.toList, Text.isWordChar c = true
  first : ∀ c ∈ word.toList.head?, c.isDigit = false
  free : word ≠ "and" ∧ word ≠ "or" ∧ word ≠ "in"

instance (word : String) : Decidable (IsWord word) :=
  decidable_of_iff (word.toList ≠ [] ∧ word.toList.all Text.isWordChar = true ∧
      word.toList.head?.all (fun c => !c.isDigit) = true ∧
      word ≠ "and" ∧ word ≠ "or" ∧ word ≠ "in") <| by
    rw [List.all_eq_true, Option.all_eq_true]
    simp only [Bool.not_eq_true']
    exact ⟨fun ⟨nonempty, chars, first, free⟩ => ⟨nonempty, chars, first, free⟩,
      fun ⟨nonempty, chars, first, free⟩ => ⟨nonempty, chars, first, free⟩⟩

/-- Each double quote comes right after a backslash. -/
def Guarded (content : List Char) : Prop :=
  ∀ before after, content = before ++ '"' :: after → before.getLast? = some '\\'

/-- A constant that can be written: an integer that is not negative, or a guarded string. -/
inductive IsConstant : Value → Prop where
  | int {i : Int64} (h : 0 ≤ i.toInt) : IsConstant (.int i)
  | str {s : String} (h : Guarded s.toList) : IsConstant (.str s)

/-- The path of a property: one name or more. -/
structure IsPropertyPath (path : List String) : Prop where
  nonempty : path ≠ []
  words : ∀ word ∈ path, IsWord word

instance (path : List String) : Decidable (IsPropertyPath path) :=
  decidable_of_iff (path ≠ [] ∧ ∀ word ∈ path, IsWord word)
    ⟨fun ⟨nonempty, words⟩ => ⟨nonempty, words⟩, fun ⟨nonempty, words⟩ => ⟨nonempty, words⟩⟩

/-- An argument that can be written. -/
inductive IsPrintableArg : Arg → Prop where
  | literal {value : Value} (h : IsConstant value) : IsPrintableArg (.literal value)
  | attr {path : List String} (h : IsPropertyPath path) : IsPrintableArg (.attr path)

/-- A tree that can be written. The receiver of a call may be the document itself, which has no
name. -/
inductive WellFormed : Expr → Prop where
  | literal {value : Value} (h : IsConstant value) : WellFormed (.literal value)
  | attr {path : List String} (h : IsPropertyPath path) : WellFormed (.attr path)
  | call {receiver : List String} {method : String} {args : List Arg}
    (hpath : ∀ word ∈ receiver, IsWord word) (hmethod : IsWord method)
    (hargs : ∀ arg ∈ args, IsPrintableArg arg) : WellFormed (.call receiver method args)
  | compare (op : CompareOp) {l r : Expr} (hl : WellFormed l) (hr : WellFormed r) :
    WellFormed (.compare op l r)
  | arith (op : ArithOp) {l r : Expr} (hl : WellFormed l) (hr : WellFormed r) :
    WellFormed (.arith op l r)
  | neg {e : Expr} (h : WellFormed e) : WellFormed (.neg e)
  | not {e : Expr} (h : WellFormed e) : WellFormed (.not e)
  | and {l r : Expr} (hl : WellFormed l) (hr : WellFormed r) : WellFormed (.and l r)
  | or {l r : Expr} (hl : WellFormed l) (hr : WellFormed r) : WellFormed (.or l r)

/-- A constant that is no double. -/
def ConstantFloatFree (value : Value) : Prop := ∀ x, value ≠ .float x

/-- No constant of the tree is a double. -/
def FloatFree : Expr → Prop
  | .literal value => ConstantFloatFree value
  | .attr _ => True
  | .call _ _ args => ∀ value, .literal value ∈ args → ConstantFloatFree value
  | .compare _ l r | .arith _ l r | .and l r | .or l r => FloatFree l ∧ FloatFree r
  | .neg e | .not e => FloatFree e

/-! ## Tokens of a tree -/

/-- The tokens of a path. -/
def pathKinds : List String → List Kind
  | [] => []
  | [word] => [.name word]
  | word :: path => .name word :: .dot :: pathKinds path

/-- The token of a constant. -/
def constantKind : Value → Kind
  | .str s => .str s
  | value => .number value

/-- The tokens of an argument. -/
def argKinds : Arg → List Kind
  | .literal value => [constantKind value]
  | .attr path => pathKinds path

/-- The tokens of arguments, with commas between them. -/
def argsKinds : List Arg → List Kind
  | [] => []
  | [arg] => argKinds arg
  | arg :: args => argKinds arg ++ .comma :: argsKinds args

/-- Tokens in parentheses. -/
def group (kinds : List Kind) : List Kind := .opening :: (kinds ++ [.closing])

/-- The tokens of a tree, with each operand in parentheses. -/
def kinds : Expr → List Kind
  | .literal value => [constantKind value]
  | .attr path => pathKinds path
  | .call receiver method args => pathKinds (receiver ++ [method]) ++ group (argsKinds args)
  | .compare op l r => group (kinds l) ++ .compare op :: group (kinds r)
  | .arith op l r => group (kinds l) ++ .arith op :: group (kinds r)
  | .neg e => .arith .sub :: group (kinds e)
  | .not e => .bang :: group (kinds e)
  | .and l r => group (kinds l) ++ .and :: group (kinds r)
  | .or l r => group (kinds l) ++ .or :: group (kinds r)

end Expr

/-! ## Texts of tokens -/

namespace Token

/-- A text between quotes and the content it stands for. -/
inductive Escapes : List Char → List Char → Prop where
  | nil : Escapes [] []
  | plain {c : Char} {s t : List Char} (hquote : c ≠ '"') (hbackslash : c ≠ '\\')
    (h : Escapes s t) : Escapes (c :: s) (c :: t)
  | newline {s t : List Char} (h : Escapes s t) : Escapes ('\\' :: 'n' :: s) ('\n' :: t)
  | tab {s t : List Char} (h : Escapes s t) : Escapes ('\\' :: 't' :: s) ('\t' :: t)
  | backslash {s t : List Char} (h : Escapes s t) : Escapes ('\\' :: '\\' :: s) ('\\' :: t)
  | quote {s t : List Char} (h : Escapes s t) : Escapes ('\\' :: '\'' :: s) ('\'' :: t)
  -- Any other character after a backslash, a double quote among them, leaves the backslash there.
  | other {c : Char} {s t : List Char} (hc : c ∉ ['n', 't', '\\', '\'']) (h : Escapes s t) :
    Escapes ('\\' :: c :: s) ('\\' :: c :: t)

/-- The tokens with one text each. -/
def signs : List (Kind × String) :=
  [(.and, "and"), (.or, "or"), (.compare .isIn, "in"), (.bang, "!"), (.dot, "."), (.comma, ","),
    (.opening, "("), (.closing, ")"), (.arith .add, "+"), (.arith .sub, "-"), (.arith .mul, "*"),
    (.arith .div, "/"), (.compare .eq, "=="), (.compare .ne, "!="), (.compare .lt, "<"),
    (.compare .le, "<="), (.compare .gt, ">"), (.compare .ge, ">=")]

/-- White space. -/
def AreBlanks (gap : List Char) : Prop := ∀ c ∈ gap, Text.isBlank c = true

/-- The texts of a token. -/
inductive Spelling : Kind → List Char → Prop where
  | sign {kind : Kind} {text : String} (h : (kind, text) ∈ signs) : Spelling kind text.toList
  | notIn {gap : List Char} (hgap : AreBlanks gap) (hne : gap ≠ []) :
    Spelling (.compare .notIn) ("not".toList ++ gap ++ "in".toList)
  | name (word : String) : Spelling (.name word) word.toList
  | number {i : Int64} {digits : List Char} (hne : digits ≠ [])
    (hdigits : ∀ c ∈ digits, c.isDigit = true)
    (hvalue : (Nat.ofDigitChars 10 digits 0 : Int) = i.toInt) : Spelling (.number (.int i)) digits
  | str {content : String} {source : List Char} (h : Escapes source content.toList) :
    Spelling (.str content) ('"' :: (source ++ ['"']))

/-- The texts of tokens: a text of each one, with any white space around it. -/
inductive Spells : List Kind → List Char → Prop where
  | nil {gap : List Char} (hgap : AreBlanks gap) : Spells [] gap
  | cons {gap text rest : List Char} {kind : Kind} {kinds : List Kind} (hgap : AreBlanks gap)
    (htext : Spelling kind text) (h : Spells kinds rest) :
    Spells (kind :: kinds) (gap ++ text ++ rest)

end Token

/-- A text of a tree. -/
def Expr.Prints (e : Expr) (source : String) : Prop := Token.Spells e.kinds source.toList

end CorpusQuery
