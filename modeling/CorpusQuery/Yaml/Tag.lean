/-!
# Tags

The tag of a node says what its content stands for. It is written as an address with escapes for
bytes, and these need not make up a text: a tag is a list of bytes.
-/

namespace CorpusQuery.Yaml

/-- The tag of a node. -/
structure Tag where
  bytes : List UInt8
  deriving Repr, DecidableEq

namespace Tag

/-- The tag that is a text. -/
def ofString (s : String) : Tag := ⟨s.toUTF8.data.toList⟩

/-- One tag after another. -/
def append (a b : Tag) : Tag := ⟨a.bytes ++ b.bytes⟩

/-- The start of the tags that every YAML reader knows. -/
def coreStem : Tag := ofString "tag:yaml.org,2002:"

/-- The tag of nothing. -/
def null : Tag := coreStem.append (ofString "null")

/-- The tag of truth values. -/
def bool : Tag := coreStem.append (ofString "bool")

/-- The tag of integers. -/
def int : Tag := coreStem.append (ofString "int")

/-- The tag of doubles. -/
def float : Tag := coreStem.append (ofString "float")

/-- An exclamation mark, as a byte. -/
def bang : UInt8 := 0x21

/-- Whether the tag is local: it starts with an exclamation mark. -/
def isLocal (tag : Tag) : Bool := tag.bytes.head? == some bang

/-- The text without an exclamation mark at its start, unless that is all of it. -/
def withoutBang : List Char → List Char
  | '!' :: c :: rest => c :: rest
  | text => text

/-- The name of a local tag, if it is a text. The mark of a local tag is not part of it, and one
more mark at the start does not count. The name of the tag `!` is the mark itself. -/
def name? (tag : Tag) : Option String :=
  if tag.isLocal then
    (String.fromUTF8? ⟨tag.bytes.toArray⟩).map fun text =>
      String.ofList (withoutBang (withoutBang text.toList))
  else none

end Tag

end CorpusQuery.Yaml
