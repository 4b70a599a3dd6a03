import CorpusQuery.Text.Alphanumeric
import CorpusQuery.Text.Pieces

/-!
# Text in Markdown

What is read off the text of a document: the block of properties at its start, the tags and the
links in its running text. `Html.escape` writes a text so that it can stand between tags of HTML or
in an attribute.
-/

namespace CorpusQuery

namespace Markdown

/-! ## Front matter

A text may open with a block of properties: the first line is `---`, and the block ends with the
next line that is `---` or `...`. A byte order mark before the block does not count. -/

/-- The text after the line that opens a block of front matter. -/
def afterOpening? : List Char → Option (List Char)
  | '-' :: '-' :: '-' :: '\n' :: rest => some rest
  | '-' :: '-' :: '-' :: '\r' :: '\n' :: rest => some rest
  | _ => none

/-- Whether a character belongs to the end of a line. -/
def isLineEnd (c : Char) : Bool := c == '\r' || c == '\n'

/-- Whether a line closes a block of front matter. -/
def isClosing (line : List Char) : Bool :=
  let content := (line.reverse.dropWhile isLineEnd).reverse
  content == ['-', '-', '-'] || content == ['.', '.', '.']

/-- The text without a byte order mark at its start. -/
def dropMark : List Char → List Char
  | [] => []
  | c :: rest => if c.toNat = 0xFEFF then rest else c :: rest

/-- The block of front matter and the text after it; without such a block the whole text. -/
def splitFrontMatterChars (s : List Char) : Option (List Char) × List Char :=
  let text := dropMark s
  match afterOpening? text with
  | none => (none, text)
  | some rest =>
    let lines := Text.linesWithEnds rest
    let block := lines.takeWhile fun line => !isClosing line
    match lines.drop block.length with
    | [] => (none, text)
    | _ :: body => (some block.flatten, body.flatten)

/-- The block of front matter and the text after it; without such a block the whole text. -/
def splitFrontMatter (s : String) : Option String × String :=
  let (block, body) := splitFrontMatterChars s.toList
  (block.map String.ofList, String.ofList body)

/-! ## Inline tags

A tag in running text is a `#` and the word characters, `-` and `/` after it. A `#` that is glued to
a word character, to another `#` or to a `&` starts no tag. -/

/-- A character of a tag. -/
def isTagChar (c : Char) : Bool := Text.isWordChar c || c == '-' || c == '/'

/-- Whether a `#` after this character starts no tag. -/
def gluesHash (c : Char) : Bool := Text.isWordChar c || c == '#' || c == '&'

/-- What is known in the middle of a text: the last character, the tag that has been opened, and the
tags before it. Characters and tags are held in reverse. -/
structure TagScan where
  last : Option Char
  tag : Option (List Char)
  done : List (List Char)

/-- The tags found so far, after the opened one is closed; a tag has one character at least. -/
def TagScan.closed (scan : TagScan) : List (List Char) :=
  match scan.tag with
  | none | some [] => scan.done
  | some tag => tag.reverse :: scan.done

/-- Goes over one more character. -/
def TagScan.step (scan : TagScan) (c : Char) : TagScan :=
  match scan.tag, isTagChar c with
  | some tag, true => ⟨some c, some (c :: tag), scan.done⟩
  | _, _ =>
    let opens := c == '#' && !scan.last.any gluesHash
    ⟨some c, if opens then some [] else none, scan.closed⟩

/-- The tags of a text, in order, without their `#`. -/
def hashtagsOf (s : List Char) : List (List Char) :=
  (s.foldl TagScan.step ⟨none, none, []⟩).closed.reverse

/-- The tags of a text, in order, without their `#`. -/
def hashtags (s : String) : List String :=
  (hashtagsOf s.toList).map String.ofList

/-! ## Wikilinks

A link is written `[[target]]` or `[[target|alias]]`. -/

/-- The links of a text after those in `found`, which are held in reverse. A link without its
closing brackets ends the search; a target that is empty or holds a `[` is passed over. -/
def linksFrom (found : List (List Char)) (s : List Char) : List (List Char) :=
  match _opened : Text.cut? ['[', '['] s with
  | none => found.reverse
  | some (_, inner) =>
    match _closed : Text.cut? [']', ']'] inner with
    | none => found.reverse
    | some (body, rest) =>
      let target := body.takeWhile (· != '|')
      linksFrom (if target.isEmpty || target.contains '[' then found else target :: found) rest
termination_by s.length
decreasing_by
  have := Text.length_lt_of_cut? (by simp) _opened
  have := Text.length_lt_of_cut? (by simp) _closed
  omega

/-- The targets of the links of a text, in order. -/
def wikilinks (s : String) : List String :=
  (linksFrom [] s.toList).map String.ofList

end Markdown

/-! ## HTML text -/

namespace Html

/-- A character of HTML text: the five characters with a meaning of their own become entities. -/
def escapeChar (c : Char) : List Char :=
  if c = '&' then ['&', 'a', 'm', 'p', ';']
  else if c = '<' then ['&', 'l', 't', ';']
  else if c = '>' then ['&', 'g', 't', ';']
  else if c = '"' then ['&', 'q', 'u', 'o', 't', ';']
  else if c = '\'' then ['&', '#', '3', '9', ';']
  else [c]

/-- A text for an HTML text node or attribute value. -/
def escape (s : String) : String :=
  String.ofList (s.toList.flatMap escapeChar)

end Html

end CorpusQuery
