import CorpusQuery.Yaml.Error

/-!
# Places in a YAML text

A `Cursor` is a place in a text: the characters from there on, and where they stand. Lines end with
a line feed, a carriage return or both, or with one of the line ends of Unicode.
-/

namespace CorpusQuery.Yaml

/-- Whether a character may stand in a YAML text. -/
def isAllowed (c : Char) : Bool :=
  let n := c.toNat
  n == 0x09 || n == 0x0A || n == 0x0D || (0x20 ≤ n && n ≤ 0x7E) || n == 0x85 ||
    (0xA0 ≤ n && n ≤ 0xD7FF) || (0xE000 ≤ n && n ≤ 0xFFFD) || 0x10000 ≤ n

/-- Whether a character ends a line. -/
def isBreak (c : Char) : Bool :=
  c == '\n' || c == '\r' || c.toNat == 0x85 || c.toNat == 0x2028 || c.toNat == 0x2029

/-- A space or a tab. -/
def isSpace (c : Char) : Bool := c == ' ' || c == '\t'

/-- White space of either kind. -/
def isGap (c : Char) : Bool := isSpace c || isBreak c

/-- A character of the names of anchors, directives and tag handles. -/
def isNameChar (c : Char) : Bool := c.isAlphanum || c == '_' || c == '-'

/-- What a line end counts as in the content of a scalar: the line and paragraph separators stand
for themselves, the others for a line feed. -/
def breakText (c : Char) : Char :=
  if c.toNat == 0x2028 || c.toNat == 0x2029 then c else '\n'

/-- A place: the number of bytes before it, its line, and the characters before it in the line, all
counted from zero. -/
structure Mark where
  index : Nat
  line : Nat
  column : Nat
  deriving Repr

/-- The place after a character, in the same line. -/
def Mark.past (m : Mark) (c : Char) : Mark := ⟨m.index + c.utf8Size, m.line, m.column + 1⟩

/-- The start of the next line, after a line end of `n` bytes. -/
def Mark.nextLine (m : Mark) (n : Nat) : Mark := ⟨m.index + n, m.line + 1, 0⟩

/-- A place in a text and the characters from there on. -/
structure Cursor where
  mark : Mark
  rest : List Char

namespace Cursor

/-- The start of a text. -/
def start (text : List Char) : Cursor := ⟨⟨0, 0, 0⟩, text⟩

/-- Goes `n` characters on, in the same line. -/
def skip (c : Cursor) (n : Nat) : Cursor := ⟨(c.rest.take n).foldl Mark.past c.mark, c.rest.drop n⟩

/-- Goes past the characters with `p`, none of which ends a line. -/
def skipWhile (c : Cursor) (p : Char → Bool) : Cursor := c.skip (c.rest.takeWhile p).length

/-- Goes past the line end at the cursor, if there is one, and gives what it counts as. -/
def takeBreak (c : Cursor) : List Char × Cursor :=
  match c.rest with
  | '\r' :: '\n' :: rest => (['\n'], ⟨c.mark.nextLine 2, rest⟩)
  | ch :: rest =>
    if isBreak ch then ([breakText ch], ⟨c.mark.nextLine ch.utf8Size, rest⟩) else ([], c)
  | [] => ([], c)

/-- Whether the text ends here. -/
def atEnd (c : Cursor) : Bool := c.rest.isEmpty

/-- Whether the character `n` places on has the property; there may be none. -/
def has (c : Cursor) (n : Nat) (p : Char → Bool) : Bool := c.rest[n]?.any p

/-- Whether white space or the end of the text is `n` places on. -/
def gapAt (c : Cursor) (n : Nat) : Bool := c.rest[n]?.all isGap

/-- Whether the end of a line or of the text is here. -/
def atLineEnd (c : Cursor) : Bool := c.rest.head?.all isBreak

/-- An error at the cursor. -/
def fail {α : Type} (c : Cursor) (problem : Problem) : Except Error α :=
  .error ⟨some (c.mark.line + 1), problem⟩

end Cursor

/-- Whether one of the two document marks stands at the start of a text, alone. -/
def isDocumentMark : List Char → Bool
  | '-' :: '-' :: '-' :: rest => rest.head?.all isGap
  | '.' :: '.' :: '.' :: rest => rest.head?.all isGap
  | _ => false

end CorpusQuery.Yaml
