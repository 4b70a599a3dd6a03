import CorpusQuery.Decimal.Read
import CorpusQuery.Expr.Basic
import CorpusQuery.Text.Alphanumeric
import CorpusQuery.Text.Pieces
import CorpusQuery.Value.Arithmetic
import CorpusQuery.Value.Text

/-!
# Tokens of the expression language

`tokenize` splits a text into tokens, each with its position as an offset in bytes. Blanks separate
tokens and are dropped. The words `not` and `in`, one after the other, are one operator.
-/

namespace CorpusQuery

namespace Token

/-- The kinds of tokens. -/
inductive Kind where
  | name (word : String)
  | number (value : Value)
  | str (s : String)
  | compare (op : CompareOp)
  | arith (op : ArithOp)
  | and
  | or
  | bang
  | dot
  | comma
  | opening
  | closing
  deriving Inhabited

/-- How messages speak of a token. -/
def Kind.describe : Kind → String
  | .name word => s!"name `{word}`"
  | .number value => s!"number `{value.text}`"
  | .str s => "string \"" ++ s ++ "\""
  | .compare op => s!"`{op.symbol}`"
  | .arith op => s!"`{op.symbol}`"
  | .and => "`and`"
  | .or => "`or`"
  | .bang => "`!`"
  | .dot => "`.`"
  | .comma => "`,`"
  | .opening => "`(`"
  | .closing => "`)`"

end Token

/-- A token: its kind and the offset of its first byte. -/
structure Token where
  kind : Token.Kind
  position : Nat
  deriving Inhabited

/-- Why a text does not split into tokens. -/
inductive LexError where
  | loneEquals
  | unterminatedString
  | unexpectedCharacter (c : Char)
  | invalidNumber (text : String)
  deriving Repr, DecidableEq

/-- The wording of a token error. -/
def LexError.message : LexError → String
  | .loneEquals => "expected `==`"
  | .unterminatedString => "unterminated string literal"
  | .unexpectedCharacter c => s!"unexpected character `{c}`"
  | .invalidNumber text => s!"invalid number `{text}`"

namespace Token

/-- What an escape stands for, in reverse: four escapes are known, any other keeps its backslash. -/
def unescape (c : Char) : List Char :=
  if c = 'n' then ['\n']
  else if c = 't' then ['\t']
  else if c = '\\' then ['\\']
  else if c = '\'' then ['\'']
  else [c, '\\']

/-- The content of a string up to its closing quote, and the number of characters up to and with
that quote. `content` holds what was read so far, in reverse. -/
def readString (content : List Char) (taken : Nat) : List Char → Option (String × Nat)
  | [] => none
  | '"' :: _ => some (String.ofList content.reverse, taken + 1)
  | ['\\'] => none
  | '\\' :: c :: rest => readString (unescape c ++ content) (taken + 2) rest
  | c :: rest => readString (c :: content) (taken + 1) rest

/-- The text of the number at the start: digits, and a point with digits after it. -/
def numberText (cs : List Char) : List Char × List Char :=
  match cs.dropWhile Char.isDigit with
  | '.' :: rest => (cs.takeWhile Char.isDigit, rest.takeWhile Char.isDigit)
  | _ => (cs.takeWhile Char.isDigit, [])

/-- The number at the start: an integer if it has no fraction and fits in 64 bits, else the nearest
double. -/
def readNumber (cs : List Char) : Except LexError (Kind × Nat) :=
  let (whole, fraction) := numberText cs
  let float (text : List Char) : Except LexError (Kind × Nat) :=
    match Decimal.readFloat? text with
    | some x => .ok (.number (.float x), text.length)
    | none => .error (.invalidNumber (String.ofList text))
  if fraction.isEmpty then
    match Value.int64? (Decimal.natOfDigits 0 whole) with
    | some i => .ok (.number (.int i), whole.length)
    | none => float whole
  else float (whole ++ '.' :: fraction)

/-- The token a word stands for: three words are reserved. -/
def ofWord (word : List Char) : Kind :=
  if word = ['a', 'n', 'd'] then .and
  else if word = ['o', 'r'] then .or
  else if word = ['i', 'n'] then .compare .isIn
  else .name (String.ofList word)

/-- An operator that another `=` may follow. -/
def withEquals (alone joined : Kind) : List Char → Except LexError (Kind × Nat)
  | '=' :: _ => .ok (joined, 2)
  | _ => .ok (alone, 1)

/-- The token at the start of a text that starts with `c`, and the number of its characters. -/
def lexeme (c : Char) (rest : List Char) : Except LexError (Kind × Nat) :=
  if c = '(' then .ok (.opening, 1)
  else if c = ')' then .ok (.closing, 1)
  else if c = '.' then .ok (.dot, 1)
  else if c = ',' then .ok (.comma, 1)
  else if c = '+' then .ok (.arith .add, 1)
  else if c = '-' then .ok (.arith .sub, 1)
  else if c = '*' then .ok (.arith .mul, 1)
  else if c = '/' then .ok (.arith .div, 1)
  else if c = '!' then withEquals .bang (.compare .ne) rest
  else if c = '<' then withEquals (.compare .lt) (.compare .le) rest
  else if c = '>' then withEquals (.compare .gt) (.compare .ge) rest
  else if c = '=' then
    match rest with
    | '=' :: _ => .ok (.compare .eq, 2)
    | _ => .error .loneEquals
  else if c = '"' then
    match readString [] 1 rest with
    | some (content, taken) => .ok (.str content, taken)
    | none => .error .unterminatedString
  else if c.isDigit then readNumber (c :: rest)
  else if Text.isWordChar c then
    let word := c :: rest.takeWhile Text.isWordChar
    .ok (ofWord word, word.length)
  else .error (.unexpectedCharacter c)

/-- The tokens of a text at offset `offset`, after `skip` characters that belong to the token
before. -/
def scan (offset skip : Nat) : List Char → Except (Nat × LexError) (List Token)
  | [] => .ok []
  | c :: rest =>
    let next := offset + c.utf8Size
    match skip with
    | skip + 1 => scan next skip rest
    | 0 =>
      if Text.isBlank c then scan next 0 rest
      else
        match lexeme c rest with
        | .error problem => .error (offset, problem)
        | .ok (kind, taken) =>
          match scan next (taken - 1) rest with
          | .ok tokens => .ok (⟨kind, offset⟩ :: tokens)
          | .error e => .error e

/-- Makes one operator of the word `not` and an `in` after it. -/
def joinNotIn : List Token → List Token
  | [] => []
  | ⟨.name word, position⟩ :: ⟨.compare .isIn, inPosition⟩ :: rest =>
    if word = "not" then ⟨.compare .notIn, position⟩ :: joinNotIn rest
    else ⟨.name word, position⟩ :: ⟨.compare .isIn, inPosition⟩ :: joinNotIn rest
  | token :: rest => token :: joinNotIn rest

end Token

/-- The tokens of a text, or the offset of the first character that starts no token. -/
def tokenize (source : String) : Except (Nat × LexError) (List Token) :=
  (Token.scan 0 0 source.toList).map Token.joinNotIn

end CorpusQuery
