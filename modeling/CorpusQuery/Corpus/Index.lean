import CorpusQuery.Corpus.Walk
import CorpusQuery.Message
import CorpusQuery.Text.Pieces

/-!
# Indexes

An index lists the files of a corpus as they were at one moment, and says what the links between
them lead to. A link names a file by its last name, the nearest one first, or by its path below the
root.
-/

namespace CorpusQuery

/-- The files of a corpus at one moment, in order. -/
structure Index where
  files : List RelPath
  deriving Repr, DecidableEq

/-- What a link leads to: an address in the web, a path below the root, or nothing. A link without a
name leads nowhere, and that is no fault. -/
inductive Resolution where
  | web (address : String)
  | file (path : String)
  | unnamed
  | missing
  deriving Repr, DecidableEq

/-- The target of a link, if there is one. -/
def Resolution.target? : Resolution → Option String
  | .web address => some address
  | .file path => some path
  | .unnamed | .missing => none

/-- What is reported on the way: a link that leads nowhere goes to the log. -/
def Resolution.events : Resolution → List Event
  | .missing => [.log .debug "could not resolve link"]
  | _ => []

namespace Index

/-- The index of the corpus with the given root. -/
def ofDisk (d : Disk) (root : Disk.Place) : Except Disk.Fault Index :=
  (d.visibleFiles root).map Index.mk

/-- What is reported when the files of a corpus have been listed. -/
def listed : List Event := [.log .debug "indexed corpus"]

/-- Whether a link is an address in the web. -/
def isWeb (link : String) : Bool :=
  "http://".toList.isPrefixOf link.toList || "https://".toList.isPrefixOf link.toList

/-- The name in a link: without blanks around it, and without what comes after its last `#`. -/
def linkName (link : String) : String :=
  let name := Text.trim link.toList
  match name.reverse.dropWhile (· != '#') with
  | [] => String.ofList name
  | _ :: rest => String.ofList rest.reverse

/-- The folders that hold a file of the given name. -/
def foldersOf (index : Index) (name : String) : List RelPath :=
  (index.files.filter fun file => file.getLast? == some name).map List.dropLast

/-- The first of two paths in order. -/
def least (p q : RelPath) : RelPath := if p.le q then p else q

/-- The folder of the document at `document`, as it is written: below the root if the document
is there. -/
def folderFrom (root : Disk.Place) (document : String) : String :=
  Path.folder ((Path.below? root document).getD document)

/-- The file of the given name in the folder written `near` if there is one, else in the first
folder that has one. -/
def byName? (index : Index) (name near : String) : Option String :=
  match index.foldersOf name with
  | [] => none
  | folder :: folders =>
    if (folder :: folders).any fun f => f.map Path.Component.name == Path.components near then
      some (Path.join near name)
    else some (RelPath.text (folders.foldl least folder ++ [name]))

/-- The file that a path below the root leads to. -/
def byPath? (d : Disk) (root : Disk.Place) (name : String) : Option String :=
  match Path.normalize name with
  | some path => if d.isFile root path.text then some path.text else none
  | none => none

/-- What a link in the document at `document` leads to. With `markdown` the extension `.md` may be
left out. -/
def resolve (index : Index) (d : Disk) (root : Disk.Place) (link document : String)
    (markdown : Bool) : Resolution :=
  if isWeb link then .web link
  else
    let name := linkName link
    let near := folderFrom root document
    let extended := if markdown then some (name ++ ".md") else none
    if name == "" then .unnamed
    else
      let found := index.byName? name near
        <|> extended.bind (index.byName? · near)
        <|> byPath? d root name
        <|> extended.bind (byPath? d root)
      match found with
      | some path => .file path
      | none => .missing

end Index

end CorpusQuery
