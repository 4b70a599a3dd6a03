import CorpusQuery.Document
import CorpusQuery.Markdown
import CorpusQuery.Yaml.Node

/-!
# The content of documents

What is known about a document from its text: the properties in its front matter, its tags, and the
files it links to. Reading never fails. A document that cannot be read has no content, one with bad
front matter has no properties, and either is reported. `Document.content` reads a document when it
is first asked, and keeps what it read.
-/

namespace CorpusQuery

/-- What a document says: tags and links in increasing order, and properties by name. -/
structure Content where
  tags : List String := []
  links : List String := []
  properties : Dictionary Value := []
  deriving Inhabited

/-- Files of more bytes than this are not read. -/
def maxFileSize : Nat := 1048576

/-- Why the text of a document is not read. -/
inductive ReadProblem where
  | refused (fault : Disk.Fault)
  | tooLarge (size : Nat)
  | notUtf8
  deriving Repr, DecidableEq

/-- The wording of a read problem. -/
def ReadProblem.message : ReadProblem → String
  | .refused fault => fault.message
  | .tooLarge size => s!"file is {size} bytes, larger than {maxFileSize}"
  | .notUtf8 => "content is not valid UTF-8"

/-- Why a block of front matter has no properties. -/
inductive PropertiesProblem where
  | yaml (error : Yaml.Error)
  | notMapping (found : Value.Kind)

/-- The wording of a properties problem. -/
def PropertiesProblem.message : PropertiesProblem → String
  | .yaml error => error.message
  | .notMapping found => s!"expected a mapping, found {found.name}"

namespace Content

/-- The content without anything. -/
def empty : Content := {}

/-- The text at a path on the disk. -/
def readText (d : Disk) (location : String) : Except ReadProblem String :=
  match d.find [] location with
  | .error fault => .error (.refused fault)
  | .ok (.file bytes) =>
    if maxFileSize < bytes.size then .error (.tooLarge bytes.size)
    else
      match String.fromUTF8? bytes with
      | some text => .ok text
      | none => .error .notUtf8
  | .ok _ => .error (.refused .isFolder)

/-- The properties in a block of front matter. -/
def readProperties (block : String) : Except PropertiesProblem (Dictionary Value) :=
  match Yaml.Node.ofText block with
  | .error e => .error (.yaml e)
  | .ok .null => .ok []
  | .ok node =>
    match node, node.toValue with
    | .mapping _, .map entries => .ok entries
    | _, value => .error (.notMapping value.kind)

/-- A tag as it was declared, without blanks around it and without the `#` at its start. -/
def declaredTag (tag : String) : String :=
  String.ofList ((Text.trim tag.toList).dropWhile (· == '#'))

/-- The tags that the value of the property `tags` declares. -/
def declaredTags (value : Value) : List String :=
  let written := match value with
    | .list items => items.map Value.text
    | .null => []
    | other => [other.text]
  (written.map declaredTag).filter (· != "")

/-- The texts in increasing order, each once. -/
def sortedSet (texts : List String) : List String :=
  (texts.mergeSort fun a b => (compare a b).isLE).eraseReps

/-- The content of a document with the given text, and what is reported about it. -/
def ofText (snapshot : Snapshot) (doc : Document) (text : String) : Content × List Event :=
  let (block, body) := Markdown.splitFrontMatter text
  let (properties, reported) : Dictionary Value × List Event :=
    match block.map readProperties with
    | none => ([], [])
    | some (.ok properties) => (properties, [])
    | some (.error problem) =>
      let text := s!"bad properties for file {doc.path}"
      ([], (snapshot.corpus.message .warning text problem.message).events true)
  let declared := ((properties.lookup "tags").map declaredTags).getD []
  let links := (Markdown.wikilinks body).map fun link =>
    snapshot.index.resolve snapshot.disk snapshot.corpus.root link doc.location true
  let content :=
    { tags := sortedSet (Markdown.hashtags body ++ declared)
      links := sortedSet (links.filterMap Resolution.target?)
      properties }
  (content, reported ++ links.flatMap Resolution.events)

/-- The content of a document, and what is reported about it. -/
def extract (snapshot : Snapshot) (doc : Document) : Content × List Event :=
  if doc.isMarkdown then
    match readText snapshot.disk doc.location with
    | .ok text => ofText snapshot doc text
    | .error problem =>
      let text := s!"could not read metadata from {doc.path}"
      (empty, (snapshot.corpus.message .warning text problem.message).events true)
  else (empty, [])

end Content

namespace Document

/-- Work on one document: the state is its content, once that has been read. -/
abbrev Reading := Job (Option Content)

/-- The content of a document, which is read now unless it has been read before. -/
def content (snapshot : Snapshot) (doc : Document) : Reading Content := do
  match ← get with
  | some content => pure content
  | none =>
    let (content, events) := Content.extract snapshot doc
    Job.report events
    set (some content)
    pure content

end Document

end CorpusQuery
