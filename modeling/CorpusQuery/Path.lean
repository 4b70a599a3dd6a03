import CorpusQuery.Text.Pieces

/-!
# Paths

Paths as they are written, and what they mean without looking at the disk. A written path is taken
apart into components: repeated slashes do not count, and neither does a `.` except at the start of
a relative path. `normalize` resolves `..`, and refuses what is absolute or climbs above its start;
the paths of the documents of a corpus are lists of names, in order component by component. `encode`
writes a path as the end of an address.
-/

namespace CorpusQuery

/-- A path below the corpus root: the names of folders and, last, of what it leads to. -/
abbrev RelPath := List String

/-- The written form of a path below the root. -/
def RelPath.text (p : RelPath) : String := String.intercalate "/" p

/-- Whether a path comes before another one or is the same: their first names that differ decide,
and a path comes before those that continue it. -/
def RelPath.le (p q : RelPath) : Bool := (compare p q).isLE

namespace Path

/-- A component of a written path. -/
inductive Component where
  | root
  | here
  | up
  | name (s : String)
  deriving Repr, DecidableEq

/-- The text of a component. -/
def Component.text : Component → String
  | .root => "/"
  | .here => "."
  | .up => ".."
  | .name s => s

/-- Whether a path starts at the root of the file system. -/
def isAbsolute (text : String) : Bool := text.toList.head? == some '/'

/-- Whether a piece between slashes changes nothing. -/
def isTrivial (piece : String) : Bool := piece == "" || piece == "."

/-- The component that a piece between slashes stands for. -/
def pieceComponent (piece : String) : Component := if piece == ".." then .up else .name piece

/-- The pieces of a path between its slashes. -/
def pieces (text : String) : List String := Text.splitString '/' text

/-- The components of a written path. -/
def components (text : String) : List Component :=
  let pieces := pieces text
  let rest := (pieces.filter fun piece => !isTrivial piece).map pieceComponent
  if isAbsolute text then .root :: rest
  else if pieces.head? == some "." then .here :: rest
  else rest

/-- One component more on top of the names in `stack`, which are held in reverse. -/
def pushComponent (stack : List String) : Component → Option (List String)
  | .name s => some (s :: stack)
  | .here => some stack
  | .up =>
    match stack with
    | [] => none
    | _ :: stack => some stack
  | .root => none

/-- The path below its start that components lead to; there is none if they are absolute or climb
above the start. -/
def normalizeComponents (components : List Component) : Option RelPath :=
  (components.foldlM pushComponent []).map List.reverse

/-- The path below its start that a written path leads to. -/
def normalize (text : String) : Option RelPath := normalizeComponents (components text)

/-- A path written after another one. An absolute path stands for itself. -/
def join (base child : String) : String :=
  if isAbsolute child || base == "" then child
  else if base.endsWith "/" then base ++ child
  else base ++ "/" ++ child

/-- The pieces without the trivial ones at their end. -/
def trimPieces (pieces : List String) : List String :=
  (pieces.reverse.dropWhile isTrivial).reverse

/-- The last name of a path. -/
def fileName? (text : String) : Option String :=
  match (components text).getLast? with
  | some (.name s) => some s
  | _ => none

/-- The written path without its last component; the root and the empty path have no parent. -/
def parent? (text : String) : Option String :=
  let slash := if isAbsolute text then "/" else ""
  let all := if isAbsolute text then (pieces text).drop 1 else pieces text
  let first := if slash == "" then all.takeWhile (· == ".") |>.take 1 else []
  match trimPieces (all.drop first.length) with
  | [] => if first.isEmpty then none else some ""
  | rest => some (slash ++ RelPath.text (first ++ trimPieces rest.dropLast))

/-- The written path of the folder around a path; empty if there is none. -/
def folder (text : String) : String := (parent? text).getD ""

/-- The part of a name after its last point, if there is something before that point. -/
def nameExtension? (name : String) : Option String :=
  let reversed := name.toList.reverse
  let after := reversed.takeWhile (· != '.')
  match reversed.drop after.length with
  | '.' :: _ :: _ => if name == ".." then none else some (String.ofList after.reverse)
  | _ => none

/-- The extension of the last name of a path. -/
def extension? (text : String) : Option String := (fileName? text).bind nameExtension?

/-- The pieces after those that lead to a root of the given names. -/
def afterRoot? : List String → List String → Option (List String)
  | [], [] => some []
  | _ :: _, [] => none
  | root, piece :: pieces =>
    if isTrivial piece then afterRoot? root pieces
    else
      match root with
      | [] => some (piece :: pieces)
      | name :: names => if name == piece then afterRoot? names pieces else none

/-- The rest of an absolute path below a root of the given names, as it is written. -/
def below? (root : List String) (text : String) : Option String :=
  if isAbsolute text then
    (afterRoot? root (pieces text)).map fun pieces => RelPath.text (trimPieces pieces)
  else none

/-! ## Paths in addresses

The components of a path, each with the characters that have a meaning in an address written as the
hexadecimal codes of their bytes. -/

/-- A byte that stands for itself: an ASCII letter or digit, or one of `-`, `_`, `.` and `~`. -/
def isUnreserved (b : UInt8) : Bool :=
  let c := Char.ofNat b.toNat
  b < 128 && (c.isAlphanum || c == '-' || c == '_' || c == '.' || c == '~')

/-- A hexadecimal digit, with capital letters. -/
def hexDigit (n : Nat) : Char :=
  if n < 10 then Char.ofNat ('0'.toNat + n) else Char.ofNat ('A'.toNat + n - 10)

/-- A byte of an address. -/
def encodeByte (b : UInt8) : List Char :=
  if isUnreserved b then [Char.ofNat b.toNat]
  else ['%', hexDigit (b.toNat / 16), hexDigit (b.toNat % 16)]

/-- One component of an address. -/
def encodeSegment (s : String) : String :=
  String.ofList ((s.toList.flatMap String.utf8EncodeChar).flatMap encodeByte)

/-- A written path as the end of an address. -/
def encode (text : String) : String :=
  String.intercalate "/" ((components text).map fun c => encodeSegment c.text)

end Path

end CorpusQuery
