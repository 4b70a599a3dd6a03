import CorpusQuery.Path

/-!
# Disks

A disk is a tree of files, folders and symbolic links. Paths are followed as a file system does it:
links lead on from where they stand, `..` leads to the folder above the one that was reached, and at
most `maxLinks` links are followed. A place on the disk is named by the names that lead to it from
the top, none of which is a link or a `..`.

Two things that a file system may hold are outside of the model. A name is a text: there are no
names whose bytes are not UTF-8. And every entry can be read: no file, folder or link is closed to
the reader for want of permission, so that an access fails only as `Fault` lists it.
-/

namespace CorpusQuery

/-- What a name in a folder stands for. -/
inductive Disk.Node where
  | file (content : ByteArray)
  | folder (entries : List (String × Disk.Node))
  | link (target : String)
  deriving Inhabited

/-- A disk: the entries of its top folder. The names in a folder are distinct. -/
structure Disk where
  entries : List (String × Disk.Node)
  deriving Inhabited

namespace Disk

/-! ## Failures of access -/

/-- Why the file system refused an access. -/
inductive Fault where
  | notFound
  | notFolder
  | isFolder
  | tooManyLinks
  | notUtf8
  deriving Repr, DecidableEq

/-- The wording of a refused access. -/
def Fault.message : Fault → String
  | .notFound => "no such file or directory"
  | .notFolder => "not a directory"
  | .isFolder => "is a directory"
  | .tooManyLinks => "too many levels of symbolic links"
  | .notUtf8 => "stream did not contain valid UTF-8"

/-! ## Following paths -/

/-- The disk without any files. -/
def empty : Disk := ⟨[]⟩

/-- A place on a disk: the names that lead to it. -/
abbrev Place := List String

/-- The node that names lead to from a folder, without following links. -/
def nodeIn? : Place → Node → Option Node
  | [], node => some node
  | name :: names, .folder entries => (entries.lookup name).bind (nodeIn? names)
  | _ :: _, _ => none

/-- The node at a place. -/
def node? (d : Disk) (place : Place) : Option Node := nodeIn? place (.folder d.entries)

/-- A step along a path. -/
inductive Step where
  | stay
  | up
  | enter (name : String)
  deriving Repr, DecidableEq

/-- The step that a piece of a path stands for. -/
def stepOf (piece : String) : Step :=
  if Path.isTrivial piece then .stay else if piece == ".." then .up else .enter piece

/-- The steps along a written path. The empty path leads nowhere and has none. -/
def steps (text : String) : List Step := (Path.pieces text).map stepOf

/-- How many links are followed on one path. -/
def maxLinks : Nat := 40

/-- The place that steps lead to from a place. With `orNew` the last name need not exist, as long as
its folder does. -/
def walkTo (d : Disk) (orNew : Bool) (links : Nat) (place : Place) :
    List Step → Except Fault Place
  | [] => .ok place
  | step :: rest =>
    match d.node? place with
    | some (.folder entries) =>
      match step with
      | .stay => walkTo d orNew links place rest
      | .up => walkTo d orNew links place.dropLast rest
      | .enter name =>
        match entries.lookup name with
        | none => if orNew && rest.isEmpty then .ok (place ++ [name]) else .error .notFound
        | some (.link target) =>
          match links with
          | 0 => .error .tooManyLinks
          | links + 1 =>
            if target == "" then .error .notFound
            else
              let start := if Path.isAbsolute target then [] else place
              walkTo d orNew links start (steps target ++ rest)
        | some _ => walkTo d orNew links (place ++ [name]) rest
    | some _ => .error .notFolder
    | none => .error .notFound
termination_by steps => (links, steps.length)

/-- The place that a written path leads to from the folder `cwd`. -/
def locate (d : Disk) (cwd : Place) (text : String) : Except Fault Place :=
  if text == "" then .error .notFound
  else d.walkTo false maxLinks (if Path.isAbsolute text then [] else cwd) (steps text)

/-- The file or folder that a written path leads to. -/
def find (d : Disk) (cwd : Place) (text : String) : Except Fault Node := do
  let place ← d.locate cwd text
  match d.node? place with
  | some node => .ok node
  | none => .error .notFound

/-- Whether a written path leads to a file. -/
def isFile (d : Disk) (cwd : Place) (text : String) : Bool :=
  match d.find cwd text with
  | .ok (.file _) => true
  | _ => false

/-- Whether a written path leads to a folder. -/
def isFolder (d : Disk) (cwd : Place) (text : String) : Bool :=
  match d.find cwd text with
  | .ok (.folder _) => true
  | _ => false

/-- The content of the file that a written path leads to. -/
def read (d : Disk) (cwd : Place) (text : String) : Except Fault ByteArray := do
  match ← d.find cwd text with
  | .file content => .ok content
  | _ => .error .isFolder

/-- The text of the file that a written path leads to. -/
def readText (d : Disk) (cwd : Place) (text : String) : Except Fault String := do
  match String.fromUTF8? (← d.read cwd text) with
  | some s => .ok s
  | none => .error .notUtf8

/-- The written form of a place. -/
def Place.text (place : Place) : String := "/" ++ RelPath.text place

end Disk

end CorpusQuery
