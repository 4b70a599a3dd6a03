import CorpusQuery.Document.Content
import CorpusQuery.Expr.Eval
import CorpusQuery.Markdown

/-!
# Properties of documents

`Document.property` looks up a property by its path: `file` is the document itself, `file.name` and
the like are facts about the file, and any other single name is a property of the front matter. A
column of a view shows some of them in another form than expressions see. Only tags, links and
properties of the front matter need the content of the document.
-/

namespace CorpusQuery

/-- The facts about the file of a document. -/
inductive FileField where
  | folder
  | path
  | ext
  | tags
  | links
  | name
  deriving Repr, DecidableEq

/-- The fact with the given name. -/
def FileField.ofName? : String → Option FileField
  | "folder" => some .folder
  | "path" => some .path
  | "ext" => some .ext
  | "tags" => some .tags
  | "links" => some .links
  | "name" => some .name
  | _ => none

/-- The property that holds the picture of a card. -/
def coverKey : String := "cover"

namespace Document

/-- Strings as a list value. -/
def textList (texts : List String) : Value := .list (texts.map .str)

/-- A link to the page of a document, under its name. -/
def nameLink (corpus : Corpus) (doc : Document) : String :=
  "<a href=\"" ++ corpus.pageUrl doc.path ++ "\">" ++ Html.escape doc.name ++ "</a>"

/-- A fact about the file of a document; with `shown` in the form for a column. -/
def fileField (snapshot : Snapshot) (doc : Document) (shown : Bool) : FileField → Reading Value
  | .folder => pure (.str (if doc.folder == "" then "." else doc.folder))
  | .path => pure (.str doc.path)
  | .ext => pure (.str doc.extension)
  | .tags => do pure (textList (← doc.content snapshot).tags)
  | .links => do pure (textList (← doc.content snapshot).links)
  | .name => pure (.str (if shown then nameLink snapshot.corpus doc else doc.name))

/-- The place of a cover below the root: an address in the web stands for itself, and a path starts
in the folder of the document. -/
def coverPath (doc : Document) (target : String) : Except Error String :=
  if Index.isWeb target then .ok target
  else
    let joined := Path.join doc.folder target
    match Path.normalize joined with
    | some path => .ok path.text
    | none => .error (.outsideRoot joined)

/-- A property of the front matter, empty if there is none. -/
def frontMatterProperty (snapshot : Snapshot) (doc : Document) (shown : Bool) (name : String) :
    Reading Value := do
  match (← doc.content snapshot).properties.lookup name with
  | none => pure (.str "")
  | some (.str target) =>
    if shown && name == coverKey then Job.ofExcept ((doc.coverPath target).map .str)
    else pure (.str target)
  | some value => pure value

/-- The property at a path; with `shown` in the form for a column. -/
def property (snapshot : Snapshot) (doc : Document) (shown : Bool) : List String → Reading Value
  | ["file", field] =>
    match FileField.ofName? field with
    | some fact => doc.fileField snapshot shown fact
    | none => throw (.field ("file." ++ field) .unknownFileProperty)
  | ["file"] => pure (if shown then .str doc.path else .document doc.path)
  | [name] => doc.frontMatterProperty snapshot shown name
  | path => throw (.field (String.intercalate "." path) .unsupportedPath)

/-- What expressions can ask about a document. -/
def scope (snapshot : Snapshot) (doc : Document) : Scope Reading where
  property := doc.property snapshot false
  tags := do pure (← doc.content snapshot).tags

end Document

end CorpusQuery
