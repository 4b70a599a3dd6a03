import CorpusQuery.Disk

/-!
# The files of a corpus

`visibleFiles` lists the files below a folder. Names that start with a point are passed over with
all that is below them. A link is listed if it leads to a file, and no link to a folder is entered,
so the walk goes once over each folder.
-/

namespace CorpusQuery.Disk

/-- Whether a name is left out of the walk. -/
def isHidden (name : String) : Bool := name.toList.head? == some '.'

mutual

/-- The files that a node at a path below `root` stands for. -/
def filesAt (d : Disk) (root : Place) (path : RelPath) : Node → List RelPath
  | .file _ => [path]
  | .folder entries => filesIn d root path entries
  | .link _ => if d.isFile [] (Place.text (root ++ path)) then [path] else []
termination_by structural node => node

/-- The files among the entries of the folder at a path below `root`. -/
def filesIn (d : Disk) (root : Place) (path : RelPath) : List (String × Node) → List RelPath
  | [] => []
  | (name, node) :: entries =>
    (if isHidden name then [] else filesAt d root (path ++ [name]) node) ++
      filesIn d root path entries
termination_by structural entries => entries

end

/-- The files of the corpus with the given root, in order. -/
def visibleFiles (d : Disk) (root : Place) : Except Fault (List RelPath) := do
  let place ← d.locate [] root.text
  match d.node? place with
  | some (.folder entries) => .ok ((filesIn d place [] entries).mergeSort RelPath.le)
  | some _ => .error .notFolder
  | none => .error .notFound

end CorpusQuery.Disk
