import CorpusQuery.Yaml.Cursor

/-!
# Scalars of a YAML text

The five styles of scalars, and how each is read from a text: where it ends, which line ends in it
are folded to blanks, and which escapes it knows. The content of a scalar is collected in reverse.
-/

namespace CorpusQuery.Yaml

/-- The ways of writing a scalar. -/
inductive Style where
  | plain
  | singleQuoted
  | doubleQuoted
  | literal
  | folded
  deriving Repr, DecidableEq

/-! ## White space inside of scalars -/

/-- White space between two parts of a scalar: blanks of one line, or, once a line has ended, the
first line end and those after it. Blanks are held in reverse. -/
structure Gap where
  broken : Bool
  blanks : List Char
  first : List Char
  more : List Char

/-- No white space. -/
def Gap.empty : Gap := ⟨false, [], [], []⟩

/-- The white space that an escaped line end leaves. -/
def Gap.escaped : Gap := ⟨true, [], [], []⟩

/-- The white space with one more blank; after a line end blanks do not count. -/
def Gap.blank (g : Gap) (c : Char) : Gap :=
  if g.broken then g else { g with blanks := c :: g.blanks }

/-- The white space with one more line end. -/
def Gap.lineEnd (g : Gap) (text : List Char) : Gap :=
  if g.broken then { g with more := g.more ++ text } else ⟨true, [], text, []⟩

/-- What white space between two parts counts as, in reverse: a single line feed is folded to a
blank, and of several the first is dropped. -/
def Gap.text (g : Gap) : List Char :=
  if g.broken then
    if g.first = ['\n'] then if g.more.isEmpty then [' '] else g.more.reverse
    else (g.first ++ g.more).reverse
  else g.blanks

/-! ## Plain scalars -/

/-- A character that a plain scalar in a flow collection may not hold. -/
def isFlowIndicator (c : Char) : Bool :=
  c == ',' || c == '[' || c == ']' || c == '\x7b' || c == '\x7d'

/-- Whether a plain scalar ends at a colon or another indicator at the start of `cs`. -/
def endsPlain (flow : Bool) : List Char → Bool
  | [] => true
  | c :: rest => (c == ':' && rest.head?.all isGap) || (flow && isFlowIndicator c)

/-- Whether a colon at the start is glued to an indicator in a flow collection. -/
def badFlowColon (flow : Bool) : List Char → Bool
  | ':' :: c :: _ => flow && (isFlowIndicator c || c == '?')
  | _ => false

/-- A scalar that was read: its content, whether its last line end is followed by blanks only, and
the place after it. -/
structure Scan where
  content : List Char
  endsOnNewLine : Bool
  after : Cursor

/-- Reads a plain scalar. `indent` is the least column its further lines may start in, `inGap` tells
whether white space was just passed. -/
def scanPlain (flow : Bool) (indent : Nat) (content : List Char) (gap : Gap) (inGap : Bool)
    (m : Mark) : List Char → Except Error Scan
  | [] => .ok ⟨content, gap.broken, ⟨m, []⟩⟩
  | '\r' :: '\n' :: rest =>
    scanPlain flow indent content (gap.lineEnd ['\n']) true (m.nextLine 2) rest
  | c :: rest =>
    let here : Cursor := ⟨m, c :: rest⟩
    let done : Except Error Scan := .ok ⟨content, gap.broken, here⟩
    if isBreak c then
      scanPlain flow indent content (gap.lineEnd [breakText c]) true (m.nextLine c.utf8Size) rest
    else if isSpace c then
      if c == '\t' && gap.broken && m.column < indent then here.fail .tabIndentation
      else scanPlain flow indent content (gap.blank c) true (m.past c) rest
    else if inGap && ((!flow && m.column < indent && gap.broken) || c == '#') then done
    else if m.column == 0 && isDocumentMark (c :: rest) then done
    else if badFlowColon flow (c :: rest) then here.fail .valueNotAllowed
    else if endsPlain flow (c :: rest) then done
    else scanPlain flow indent (c :: (gap.text ++ content)) Gap.empty false (m.past c) rest

/-! ## Quoted scalars -/

/-- The character a one character escape stands for. -/
def simpleEscape? (c : Char) : Option Char :=
  match c with
  | '0' => some (Char.ofNat 0)
  | 'a' => some (Char.ofNat 7)
  | 'b' => some (Char.ofNat 8)
  | 't' | '\t' => some '\t'
  | 'n' => some '\n'
  | 'v' => some (Char.ofNat 11)
  | 'f' => some (Char.ofNat 12)
  | 'r' => some '\r'
  | 'e' => some (Char.ofNat 27)
  | ' ' => some ' '
  | '"' => some '"'
  | '/' => some '/'
  | '\\' => some '\\'
  | 'N' => some (Char.ofNat 0x85)
  | '_' => some (Char.ofNat 0xA0)
  | 'L' => some (Char.ofNat 0x2028)
  | 'P' => some (Char.ofNat 0x2029)
  | _ => none

/-- The number of hexadecimal digits after the letter of an escape. -/
def hexLength? (c : Char) : Option Nat :=
  match c with
  | 'x' => some 2
  | 'u' => some 4
  | 'U' => some 8
  | _ => none

/-- The value of a hexadecimal digit. -/
def hexValue? (c : Char) : Option Nat :=
  if c.isDigit then some (c.toNat - '0'.toNat)
  else if 'a' ≤ c && c ≤ 'f' then some (c.toNat - 'a'.toNat + 10)
  else if 'A' ≤ c && c ≤ 'F' then some (c.toNat - 'A'.toNat + 10)
  else none

/-- What the reader of a double quoted scalar expects next: any content, the character after a
backslash, or `left` hexadecimal digits after `value`. -/
inductive Expecting where
  | content
  | escape
  | digits (left value : Nat)

/-- Reads a single quoted scalar after its first quote, up to and with its last one. `closing` tells
that the last character was a quote, which may be the first of two. -/
def scanSingle (content : List Char) (gap : Gap) (closing : Bool) (m : Mark) :
    List Char → Except Error Scan
  | [] =>
    if closing then .ok ⟨content, false, ⟨m, []⟩⟩ else (Cursor.mk m []).fail .unclosedScalar
  | c :: rest =>
    let here : Cursor := ⟨m, c :: rest⟩
    if closing then
      if c == '\'' then scanSingle (c :: content) Gap.empty false (m.past c) rest
      else .ok ⟨content, false, here⟩
    else if c == '\r' && rest.head? == some '\n' then
      scanSingle content gap false ⟨m.index + 1, m.line, m.column⟩ rest
    else if isBreak c then
      scanSingle content (gap.lineEnd [breakText c]) false (m.nextLine c.utf8Size) rest
    else if isSpace c then scanSingle content (gap.blank c) false (m.past c) rest
    else if m.column == 0 && isDocumentMark (c :: rest) then here.fail .documentMarkInScalar
    else if c == '\'' then scanSingle (gap.text ++ content) Gap.empty true (m.past c) rest
    else scanSingle (c :: (gap.text ++ content)) Gap.empty false (m.past c) rest

/-- Reads a double quoted scalar after its first quote, up to and with its last one. -/
def scanDouble (content : List Char) (gap : Gap) (expecting : Expecting) (m : Mark) :
    List Char → Except Error Scan
  | [] => (Cursor.mk m []).fail .unclosedScalar
  | c :: rest =>
    let here : Cursor := ⟨m, c :: rest⟩
    match expecting with
    | .escape =>
      if c == '\r' && rest.head? == some '\n' then
        scanDouble content gap .escape ⟨m.index + 1, m.line, m.column⟩ rest
      else if isBreak c then scanDouble content Gap.escaped .content (m.nextLine c.utf8Size) rest
      else
        match simpleEscape? c, hexLength? c with
        | some ch, _ => scanDouble (ch :: content) Gap.empty .content (m.past c) rest
        | none, some length => scanDouble content Gap.empty (.digits length 0) (m.past c) rest
        | none, none => here.fail .badEscape
    | .digits left value =>
      match hexValue? c with
      | none => here.fail .badEscape
      | some digit =>
        let value := 16 * value + digit
        if 1 < left then scanDouble content Gap.empty (.digits (left - 1) value) (m.past c) rest
        else if h : value.isValidChar then
          scanDouble (Char.ofNatAux value h :: content) Gap.empty .content (m.past c) rest
        else here.fail .badEscape
    | .content =>
      if c == '\r' && rest.head? == some '\n' then
        scanDouble content gap .content ⟨m.index + 1, m.line, m.column⟩ rest
      else if isBreak c then
        scanDouble content (gap.lineEnd [breakText c]) .content (m.nextLine c.utf8Size) rest
      else if isSpace c then scanDouble content (gap.blank c) .content (m.past c) rest
      else if m.column == 0 && isDocumentMark (c :: rest) then here.fail .documentMarkInScalar
      else if c == '"' then .ok ⟨gap.text ++ content, false, ⟨m.past c, rest⟩⟩
      else if c == '\\' then scanDouble (gap.text ++ content) Gap.empty .escape (m.past c) rest
      else scanDouble (c :: (gap.text ++ content)) Gap.empty .content (m.past c) rest

/-! ## Block scalars -/

/-- What happens to the line ends after the last line of a block scalar. -/
inductive Chomping where
  | strip
  | clip
  | keep
  deriving Repr, DecidableEq

/-- The first line of a block scalar after its indicator: the chomping, the indentation if it is
given, and the place of the next line. -/
structure BlockHeader where
  chomping : Chomping
  indent : Option Nat
  after : Cursor

/-- A chomping indicator. -/
def chomping? : Char → Option Chomping
  | '+' => some .keep
  | '-' => some .strip
  | _ => none

/-- Reads the two indicators of a block scalar, in either order. -/
def blockIndicators (c : Cursor) : Except Error BlockHeader :=
  let digit? (c : Cursor) : Except Error (Option Nat × Cursor) :=
    match c.rest with
    | d :: _ =>
      if d == '0' then c.fail .badBlockScalarHeader
      else if d.isDigit then .ok (some (d.toNat - '0'.toNat), c.skip 1)
      else .ok (none, c)
    | [] => .ok (none, c)
  match c.rest.head?.bind chomping? with
  | some chomping => do
    let (indent, c) ← digit? (c.skip 1)
    .ok ⟨chomping, indent, c⟩
  | none => do
    let (indent, c) ← digit? c
    match indent, c.rest.head?.bind chomping? with
    | some n, some chomping => .ok ⟨chomping, some n, c.skip 1⟩
    | _, _ => .ok ⟨.clip, indent, c⟩

/-- Reads the first line of a block scalar after its indicator. -/
def blockHeader (c : Cursor) : Except Error BlockHeader := do
  let header ← blockIndicators c
  let c := header.after.skipWhile isSpace
  let c := if c.has 0 (· == '#') then c.skipWhile fun ch => !isBreak ch else c
  if c.atLineEnd then .ok { header with after := c.takeBreak.2 }
  else c.fail .badBlockScalarHeader

/-- The empty lines and the indentation before a line of a block scalar. -/
structure BlockMargin where
  widest : Nat
  breaks : List Char
  after : Cursor

/-- Goes past empty lines and indentation. Without a given indentation all spaces are passed;
`widest` is the greatest column reached and `breaks` holds the line ends passed. -/
def blockMargin (indent : Option Nat) (widest : Nat) (breaks : List Char) (m : Mark) :
    List Char → Except Error BlockMargin
  | [] => .ok ⟨max widest m.column, breaks, ⟨m, []⟩⟩
  | '\r' :: '\n' :: rest =>
    blockMargin indent (max widest m.column) (breaks ++ ['\n']) (m.nextLine 2) rest
  | c :: rest =>
    let inMargin := indent.all (m.column < ·)
    if c == ' ' && inMargin then blockMargin indent widest breaks (m.past c) rest
    else if c == '\t' && inMargin then (Cursor.mk m (c :: rest)).fail .tabIndentation
    else if isBreak c then
      blockMargin indent (max widest m.column) (breaks ++ [breakText c]) (m.nextLine c.utf8Size)
        rest
    else .ok ⟨max widest m.column, breaks, ⟨m, c :: rest⟩⟩

/-- A block scalar up to some line: its content in reverse, the end of its last line, the empty
lines after that, and whether its last line starts with white space. -/
structure BlockText where
  content : List Char
  lastBreak : List Char
  breaks : List Char
  indented : Bool

/-- The text with one more line, which begins with white space or not, put after the line ends
before it. Between two lines of a folded scalar that do not, a single line end becomes a blank. -/
def BlockText.line (t : BlockText) (literal : Bool) (line lastBreak : List Char) : BlockText :=
  let indented := line.head?.any isSpace
  let folds := !literal && t.lastBreak == ['\n'] && !t.indented && !indented
  let joint := if folds then if t.breaks.isEmpty then [' '] else [] else t.lastBreak
  ⟨line.reverse ++ (joint ++ t.breaks).reverse ++ t.content, lastBreak, [], indented⟩

/-- Reads the lines of a block scalar from the first column of its content on, at most `bound` of
them. Every line takes a character at least. -/
def blockLines (literal : Bool) (indent bound : Nat) (t : BlockText) (c : Cursor) :
    Except Error (BlockText × Cursor) :=
  match bound with
  | 0 => .ok (t, c)
  | bound + 1 =>
    if c.mark.column == indent && !c.atEnd then
      let line := c.rest.takeWhile fun ch => !isBreak ch
      let (lastBreak, next) := (c.skip line.length).takeBreak
      match blockMargin (some indent) 0 [] next.mark next.rest with
      | .error e => .error e
      | .ok margin =>
        let t := { t.line literal line lastBreak with breaks := margin.breaks }
        blockLines literal indent bound t margin.after
    else .ok (t, c)

/-- Reads a block scalar after its indicator. `parent` is the indentation of the collection around
it, `-1` if there is none. -/
def scanBlock (literal : Bool) (parent : Int) (c : Cursor) : Except Error Scan := do
  let header ← blockHeader c
  let given := header.indent.map fun n => parent.toNat + n
  let margin ← blockMargin given 0 [] header.after.mark header.after.rest
  let indent := given.getD (max (max margin.widest (parent + 1).toNat) 1)
  let start : BlockText := ⟨[], [], margin.breaks, false⟩
  let (t, after) ← blockLines literal indent margin.after.rest.length start margin.after
  let lastBreak := if header.chomping = .strip then [] else t.lastBreak
  let breaks := if header.chomping = .keep then t.breaks else []
  .ok ⟨(lastBreak ++ breaks).reverse ++ t.content, false, after⟩

end CorpusQuery.Yaml
