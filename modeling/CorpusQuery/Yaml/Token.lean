import CorpusQuery.Yaml.Scalar
import CorpusQuery.Yaml.Tag

/-!
# Tokens of a YAML text

`tokenize` cuts a text into tokens. Blocks are marked by their indentation: the tokens for the start
and the end of a block collection stand for no characters. A key without `?` is only known as a key
when its colon is reached, so its token is put in afterwards, before those of the key. Such a key
has to stand on one line and to take no more than 1024 bytes.
-/

namespace CorpusQuery.Yaml

/-- The kinds of tokens. -/
inductive Token.Kind where
  | version (major minor : Nat)
  | tagDirective (handle : String) (stem : Tag)
  | documentStart
  | documentEnd
  | blockSequenceStart
  | blockMappingStart
  | blockEnd
  | flowSequenceStart
  | flowSequenceEnd
  | flowMappingStart
  | flowMappingEnd
  | blockEntry
  | flowEntry
  | key
  | value
  | alias (name : String)
  | anchor (name : String)
  | tag (handle : String) (suffix : Tag)
  | scalar (text : String) (style : Style)
  deriving Repr, DecidableEq

/-- A token and the line it starts on. -/
structure Token where
  kind : Token.Kind
  line : Nat
  deriving Repr

/-- The place of what may turn out to be a key: the number of tokens before it and its mark. A
required key starts a line of a block mapping. -/
structure KeyCandidate where
  tokensBefore : Nat
  mark : Mark
  required : Bool

/-- What is known in the middle of a text. `indents` holds the indentations around the current one,
and `keys` what may be a key on each level of flow collections, innermost first, the block level
last. -/
structure Scanner where
  cursor : Cursor
  tokens : Array Token
  indent : Int
  indents : List Int
  keyAllowed : Bool
  keys : List (Option KeyCandidate)

namespace Scanner

/-- The scanner at the start of a text. -/
def start (text : List Char) : Scanner :=
  ⟨Cursor.start text, #[], -1, [], true, [none]⟩

/-- Whether the place is inside of a flow collection. -/
def inFlow (s : Scanner) : Bool := 1 < s.keys.length

/-- Adds a token. -/
def push (s : Scanner) (kind : Token.Kind) : Scanner :=
  { s with tokens := s.tokens.push ⟨kind, s.cursor.mark.line⟩ }

/-- Goes on to another place. -/
def moveTo (s : Scanner) (c : Cursor) : Scanner := { s with cursor := c }

/-- Goes past `n` characters. -/
def skip (s : Scanner) (n : Nat) : Scanner := s.moveTo (s.cursor.skip n)

/-- A byte order mark. -/
def isByteOrderMark (c : Char) : Bool := c.toNat == 0xFEFF

/-- Goes past blanks, comments and line ends, to the next token. A byte order mark at the start of a
line is passed too. -/
def toToken (flow : Bool) (keyAllowed : Bool) (comment : Bool) (m : Mark) :
    List Char → Bool × Cursor
  | [] => (keyAllowed, ⟨m, []⟩)
  | '\r' :: '\n' :: rest => toToken flow (keyAllowed || !flow) false (m.nextLine 2) rest
  | c :: rest =>
    if isBreak c then toToken flow (keyAllowed || !flow) false (m.nextLine c.utf8Size) rest
    else if comment || c == '#' then toToken flow keyAllowed true (m.past c) rest
    else if m.column == 0 && isByteOrderMark c then toToken flow keyAllowed false (m.past c) rest
    else if c == ' ' || (c == '\t' && (flow || !keyAllowed)) then
      toToken flow keyAllowed false (m.past c) rest
    else (keyAllowed, ⟨m, c :: rest⟩)

/-- Forgets what can no longer be a key because it has become too long; it is an error if it had to
be one. -/
def dropStaleKeys (s : Scanner) : Except Error Scanner := do
  let here := s.cursor.mark
  let keys ← s.keys.mapM fun key =>
    match key with
    | none => .ok none
    | some k =>
      if k.mark.line < here.line || k.mark.index + 1024 < here.index then
        if k.required then .error ⟨some (k.mark.line + 1), .keyWithoutColon⟩ else .ok none
      else .ok (some k)
  .ok { s with keys }

/-- Forgets what might have been a key on this level; it is an error if it had to be one. -/
def removeKey (s : Scanner) : Except Error Scanner :=
  match s.keys with
  | some k :: keys =>
    if k.required then .error ⟨some (k.mark.line + 1), .keyWithoutColon⟩
    else .ok { s with keys := none :: keys }
  | _ => .ok s

/-- Remembers that a key may start here. -/
def saveKey (s : Scanner) : Except Error Scanner :=
  if s.keyAllowed then do
    let required := !s.inFlow && s.indent == (s.cursor.mark.column : Int)
    let s ← s.removeKey
    .ok { s with keys := some ⟨s.tokens.size, s.cursor.mark, required⟩ :: s.keys.tail }
  else .ok s

/-- Starts a block collection in `column` if it is indented more than the one around it; its token
comes after the first `tokensBefore` tokens. -/
def openBlock (s : Scanner) (column tokensBefore : Nat) (kind : Token.Kind) : Scanner :=
  if !s.inFlow && s.indent < (column : Int) then
    { s with
      indent := column
      indents := s.indent :: s.indents
      tokens := s.tokens.insertIdxIfInBounds tokensBefore ⟨kind, s.cursor.mark.line⟩ }
  else s

/-- Ends the block collections of the given indentations that are indented more than `column`. -/
def closeBlocksFrom (s : Scanner) (column : Int) : List Int → Scanner
  | [] => s
  | outer :: indents =>
    if column < s.indent then
      closeBlocksFrom { s.push .blockEnd with indent := outer, indents } column indents
    else s

/-- Ends the block collections that are indented more than `column`. -/
def closeBlocks (s : Scanner) (column : Int) : Scanner :=
  if s.inFlow then s else s.closeBlocksFrom column s.indents

/-- Ends all block collections, before a document mark, a directive or the end of the text. -/
def closeDocument (s : Scanner) : Except Error Scanner := do
  let s ← (s.closeBlocks (-1)).removeKey
  .ok { s with keyAllowed := false }

/-! ## Directives, anchors and tags -/

/-- Takes the characters with `p` from the cursor on. -/
def takeWhile (c : Cursor) (p : Char → Bool) : String × Cursor :=
  (String.ofList (c.rest.takeWhile p), c.skipWhile p)

/-- Reads a number of at most nine digits. -/
def versionNumber (c : Cursor) : Except Error (Nat × Cursor) :=
  let digits := c.rest.takeWhile Char.isDigit
  if digits.isEmpty || 9 < digits.length then c.fail .badDirective
  else
    .ok (digits.foldl (fun n d => 10 * n + (d.toNat - '0'.toNat)) 0, c.skip digits.length)

/-- Reads a tag handle: `!`, `!!` or `!name!`. Outside of a directive, `!name` may be the start of a
tag. -/
def tagHandle (directive : Bool) (c : Cursor) : Except Error (String × Cursor) :=
  if c.has 0 (· == '!') then
    let (name, after) := takeWhile (c.skip 1) isNameChar
    if after.has 0 (· == '!') then .ok ("!" ++ name ++ "!", after.skip 1)
    else if directive && name != "" then after.fail .badTag
    else .ok ("!" ++ name, after)
  else c.fail .badTag

/-- A character of the address of a tag; a verbatim tag may also hold commas and brackets. -/
def isAddressChar (verbatim : Bool) (c : Char) : Bool :=
  isNameChar c || ";/?:@&=+$.%!~*'()".toList.contains c ||
    (verbatim && (c == ',' || c == '[' || c == ']'))

/-- How many escapes come after one for the given byte to make up a character. A byte that goes on
with a character cannot start one. -/
def escapesAfter? (byte : UInt8) : Option Nat :=
  if byte < 0x80 then some 0
  else if byte < 0xC0 then none
  else if byte < 0xE0 then some 1
  else if byte < 0xF0 then some 2
  else if byte < 0xF8 then some 3
  else none

/-- The bytes of an address, with its escapes `%XX` resolved. `pending` is the number of escapes
that still belong to a character; that the character exists is not asked for. -/
def addressBytes (pending : Nat) : List Char → Option (List UInt8)
  | [] => if pending = 0 then some [] else none
  | '%' :: a :: b :: rest =>
    match hexValue? a, hexValue? b with
    | some x, some y =>
      let byte := UInt8.ofNat (16 * x + y)
      match pending with
      | 0 => (escapesAfter? byte).bind fun more => (addressBytes more rest).map (byte :: ·)
      | pending + 1 =>
        if 0x80 ≤ byte && byte < 0xC0 then (addressBytes pending rest).map (byte :: ·) else none
    | _, _ => none
  | c :: rest =>
    if c == '%' || pending ≠ 0 then none
    else (addressBytes 0 rest).map ((Tag.ofString c.toString).bytes ++ ·)

/-- Reads the address of a tag after `head`. It may be empty only if there is a head. A zero byte
and what comes after it do not count. -/
def tagAddress (verbatim : Bool) (head : String) (c : Cursor) : Except Error (Tag × Cursor) :=
  let taken := c.rest.takeWhile (isAddressChar verbatim)
  match addressBytes 0 taken with
  | none => c.fail .badTag
  | some bytes =>
    if taken.isEmpty && head.isEmpty then c.fail .badTag
    else
      let start := Tag.ofString (String.ofList (head.toList.drop 1))
      .ok (start.append ⟨bytes.takeWhile (· != 0)⟩, c.skip taken.length)

/-- Reads a directive after its `%`. -/
def directive (s : Scanner) : Except Error Scanner := do
  let (name, c) := takeWhile (s.cursor.skip 1) isNameChar
  if name.isEmpty || !c.gapAt 0 then c.fail .badDirective
  else
    let c := c.skipWhile isSpace
    let (kind, c) ←
      if name == "YAML" then do
        let (major, c) ← versionNumber c
        if c.has 0 (· == '.') then do
          let (minor, c) ← versionNumber (c.skip 1)
          .ok (Token.Kind.version major minor, c)
        else c.fail .badDirective
      else if name == "TAG" then do
        let (handle, c) ← tagHandle true c
        if c.has 0 isSpace then do
          let (stem, c) ← tagAddress true "" (c.skipWhile isSpace)
          if c.gapAt 0 then .ok (Token.Kind.tagDirective handle stem, c)
          else c.fail .badDirective
        else c.fail .badDirective
      else c.fail .badDirective
    let c := c.skipWhile isSpace
    let c := if c.has 0 (· == '#') then c.skipWhile fun ch => !isBreak ch else c
    if c.atLineEnd then .ok ((s.push kind).moveTo c.takeBreak.2) else c.fail .badDirective

/-- Reads the name of an anchor or an alias after its sign. -/
def anchorName (c : Cursor) : Except Error (String × Cursor) :=
  let (name, c) := takeWhile (c.skip 1) isNameChar
  if name.isEmpty || !(c.gapAt 0 || c.has 0 fun ch => "?:,]\x7d%@`".toList.contains ch) then
    c.fail .badAnchor
  else .ok (name, c)

/-- Reads a tag: its handle and the rest. A verbatim tag and the tag `!` have no handle. -/
def tag (flow : Bool) (c : Cursor) : Except Error (Token.Kind × Cursor) := do
  let (kind, c) ←
    if c.has 1 (· == '<') then do
      let (suffix, c) ← tagAddress true "" (c.skip 2)
      if c.has 0 (· == '>') then .ok (Token.Kind.tag "" suffix, c.skip 1) else c.fail .badTag
    else do
      let (handle, c) ← tagHandle false c
      if 1 < handle.length && handle.endsWith "!" then do
        let (suffix, c) ← tagAddress false "" c
        .ok (Token.Kind.tag handle suffix, c)
      else do
        let (suffix, c) ← tagAddress false handle c
        .ok (if suffix.bytes.isEmpty then .tag "" (.ofString "!") else .tag "!" suffix, c)
  if c.gapAt 0 || (flow && c.has 0 (· == ',')) then .ok (kind, c) else c.fail .badTag

/-! ## Tokens -/

/-- A token of one character that starts a flow collection. -/
def flowStart (s : Scanner) (kind : Token.Kind) : Except Error Scanner := do
  let s ← s.saveKey
  .ok (({ s with keys := none :: s.keys, keyAllowed := true }.push kind).skip 1)

/-- A token of one character that ends a flow collection. -/
def flowEnd (s : Scanner) (kind : Token.Kind) : Except Error Scanner := do
  let s ← s.removeKey
  let keys := if s.inFlow then s.keys.tail else s.keys
  .ok (({ s with keys, keyAllowed := false }.push kind).skip 1)

/-- A comma of a flow collection. -/
def flowEntry (s : Scanner) : Except Error Scanner := do
  let s ← s.removeKey
  .ok (({ s with keyAllowed := true }.push .flowEntry).skip 1)

/-- The dash of an entry of a block sequence. -/
def blockEntry (s : Scanner) : Except Error Scanner :=
  if !s.inFlow && !s.keyAllowed then s.cursor.fail .entryNotAllowed
  else do
    let s ← (s.openBlock s.cursor.mark.column s.tokens.size .blockSequenceStart).removeKey
    .ok (({ s with keyAllowed := true }.push .blockEntry).skip 1)

/-- The question mark of a key. -/
def explicitKey (s : Scanner) : Except Error Scanner :=
  if !s.inFlow && !s.keyAllowed then s.cursor.fail .keyNotAllowed
  else do
    let s ← (s.openBlock s.cursor.mark.column s.tokens.size .blockMappingStart).removeKey
    .ok (({ s with keyAllowed := !s.inFlow }.push .key).skip 1)

/-- The colon before a value. If a key without question mark came before it, the token of the key is
put in now. -/
def value (s : Scanner) : Except Error Scanner :=
  match s.keys with
  | some k :: keys =>
    let tokens := s.tokens.insertIdxIfInBounds k.tokensBefore ⟨.key, k.mark.line⟩
    let s : Scanner := { s with tokens }
    let s := s.openBlock k.mark.column k.tokensBefore .blockMappingStart
    .ok (({ s with keys := none :: keys, keyAllowed := false }.push .value).skip 1)
  | _ =>
    if !s.inFlow && !s.keyAllowed then s.cursor.fail .valueNotAllowed
    else
      let s := s.openBlock s.cursor.mark.column s.tokens.size .blockMappingStart
      .ok (({ s with keyAllowed := !s.inFlow }.push .value).skip 1)

/-- A token that a key may start with and that a value may not follow without a gap. -/
def keyToken (s : Scanner) (read : Cursor → Except Error (Token.Kind × Cursor)) :
    Except Error Scanner := do
  let s ← s.saveKey
  let (kind, c) ← read s.cursor
  .ok (({ s with keyAllowed := false }.push kind).moveTo c)

/-- The scalar token for what was read. -/
def scalarToken (style : Style) (scan : Except Error Scan) : Except Error (Token.Kind × Cursor) :=
  scan.map fun scan => (.scalar (String.ofList scan.content.reverse) style, scan.after)

/-- A quoted scalar. -/
def quoted (s : Scanner) (double : Bool) : Except Error Scanner :=
  s.keyToken fun c =>
    let inner := c.skip 1
    if double then
      scalarToken .doubleQuoted (scanDouble [] Gap.empty .content inner.mark inner.rest)
    else scalarToken .singleQuoted (scanSingle [] Gap.empty false inner.mark inner.rest)

/-- A plain scalar. -/
def plain (s : Scanner) : Except Error Scanner := do
  let s ← s.saveKey
  let c := s.cursor
  let scan ← scanPlain s.inFlow (s.indent + 1).toNat [] Gap.empty false c.mark c.rest
  let kind := Token.Kind.scalar (String.ofList scan.content.reverse) .plain
  .ok (({ s with keyAllowed := scan.endsOnNewLine }.push kind).moveTo scan.after)

/-- A block scalar. -/
def blockScalar (s : Scanner) (literal : Bool) : Except Error Scanner := do
  let s ← s.removeKey
  let scan ← scanBlock literal s.indent (s.cursor.skip 1)
  let kind :=
    Token.Kind.scalar (String.ofList scan.content.reverse) (if literal then .literal else .folded)
  .ok (({ s with keyAllowed := true }.push kind).moveTo scan.after)

/-- Whether a plain scalar may start with `c` before `rest`. -/
def startsPlain (flow : Bool) (c : Char) (rest : List Char) : Bool :=
  !(isGap c || "-?:,[]\x7b\x7d#&*!|>'\"%@`".toList.contains c) ||
    (c == '-' && !rest.head?.any isSpace) ||
    (!flow && (c == '?' || c == ':') && !rest.head?.all isGap)

/-- Reads the token at the cursor, which starts with `c` before `rest`. -/
def token (s : Scanner) (c : Char) (rest : List Char) : Except Error Scanner :=
  let column := s.cursor.mark.column
  let gapNext := rest.head?.all isGap
  if column == 0 && c == '%' then do
    let s ← s.closeDocument
    s.directive
  else if column == 0 && isDocumentMark (c :: rest) then do
    let s ← s.closeDocument
    .ok ((s.push (if c == '-' then .documentStart else .documentEnd)).skip 3)
  else if c == '[' then s.flowStart .flowSequenceStart
  else if c == '\x7b' then s.flowStart .flowMappingStart
  else if c == ']' then s.flowEnd .flowSequenceEnd
  else if c == '\x7d' then s.flowEnd .flowMappingEnd
  else if c == ',' then s.flowEntry
  else if c == '-' && gapNext then s.blockEntry
  else if c == '?' && (s.inFlow || gapNext) then s.explicitKey
  else if c == ':' && (s.inFlow || gapNext) then s.value
  else if c == '*' then
    s.keyToken fun c => (anchorName c).map fun (name, c) => (.alias name, c)
  else if c == '&' then
    s.keyToken fun c => (anchorName c).map fun (name, c) => (.anchor name, c)
  else if c == '!' then s.keyToken (tag s.inFlow)
  else if c == '|' && !s.inFlow then s.blockScalar true
  else if c == '>' && !s.inFlow then s.blockScalar false
  else if c == '\'' then s.quoted false
  else if c == '"' then s.quoted true
  else if startsPlain s.inFlow c rest then s.plain
  else s.cursor.fail .noTokenHere

/-- The place of the next token, with the blocks closed that end before it. -/
def prepare (s : Scanner) : Except Error Scanner := do
  let (keyAllowed, cursor) := toToken s.inFlow s.keyAllowed false s.cursor.mark s.cursor.rest
  let s ← { s with keyAllowed, cursor }.dropStaleKeys
  .ok (s.closeBlocks s.cursor.mark.column)

/-- The tokens up to the end of the text; `bound` is more than the number of characters that are
left. Every token takes a character at least. -/
def run (bound : Nat) (s : Scanner) : Except Error (Array Token) :=
  match bound with
  | 0 => s.cursor.fail .noTokenHere
  | bound + 1 =>
    match s.prepare with
    | .error e => .error e
    | .ok s =>
      match s.cursor.rest with
      | [] => s.closeDocument.map (·.tokens)
      | c :: rest =>
        match s.token c rest with
        | .error e => .error e
        | .ok s => run bound s

end Scanner

/-- The tokens of a text. -/
def tokenize (source : String) : Except Error (List Token) :=
  let text := source.toList
  if text.all isAllowed then ((Scanner.start text).run (text.length + 1)).map (·.toList)
  else .error ⟨none, .characterNotAllowed⟩

end CorpusQuery.Yaml
