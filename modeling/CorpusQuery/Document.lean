import CorpusQuery.Corpus
import CorpusQuery.Corpus.Index

/-!
# Documents

A document is a path below the root of a corpus. The file need not exist. What is said about a
document depends on the disk and on the index, which a `Snapshot` holds.
-/

namespace CorpusQuery

/-- A corpus at one moment: its disk, and the index in use. -/
structure Snapshot where
  corpus : Corpus
  disk : Disk
  index : Index

/-- A document: where its file is, and the rest of that path below the root of its corpus. -/
structure Document where
  location : String
  path : String
  deriving Repr, DecidableEq

namespace Document

/-- The document at an absolute path, which has to be below the root of the corpus. -/
def ofLocation (corpus : Corpus) (location : String) : Except Error Document :=
  match Path.below? corpus.root location with
  | some path => .ok { location, path }
  | none => .error (.outsideRoot location)

/-- The document at a path below the root of the corpus. -/
def ofPath (corpus : Corpus) (path : RelPath) : Document where
  location := Path.join corpus.root.text path.text
  path := path.text

/-- The folder of a document, as it is written; empty for the root. -/
def folder (doc : Document) : String := Path.folder doc.path

/-- The name of the file. -/
def name (doc : Document) : String := (Path.fileName? doc.path).getD ""

/-- The extension of the name. -/
def extension (doc : Document) : String := (Path.extension? doc.path).getD ""

/-- Whether the document is written in Markdown. Only such documents have a content. -/
def isMarkdown (doc : Document) : Bool := Path.extension? doc.path == some "md"

end Document

end CorpusQuery
