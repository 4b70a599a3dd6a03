import CorpusQuery.Disk

/-!
# Changing disks

Writing and removing files, folders and links. A change that the file system would refuse leaves the
disk as it is.
-/

namespace CorpusQuery.Disk

/-- The entries with `node` under `name`, in the place of what was there. -/
def setEntry (name : String) (node : Node) (entries : List (String × Node)) :
    List (String × Node) :=
  if (entries.lookup name).isSome then
    entries.map fun entry => if entry.1 == name then (name, node) else entry
  else entries ++ [(name, node)]

/-- The entries without the one under `name`. -/
def eraseEntry (name : String) (entries : List (String × Node)) : List (String × Node) :=
  entries.filter fun entry => entry.1 != name

/-- Changes the entries of the folder at a place below these entries. -/
def modifyEntries (change : List (String × Node) → List (String × Node)) :
    Place → List (String × Node) → List (String × Node)
  | [], entries => change entries
  | name :: names, entries =>
    match entries.lookup name with
    | some (.folder inner) => setEntry name (.folder (modifyEntries change names inner)) entries
    | _ => entries

/-- Changes the entries of the folder at a place. -/
def modify (d : Disk) (place : Place) (change : List (String × Node) → List (String × Node)) :
    Disk :=
  ⟨modifyEntries change place d.entries⟩

/-- Puts a node at a place whose folder exists. -/
def set (d : Disk) (place : Place) (node : Node) : Disk :=
  match place.getLast? with
  | none => d
  | some name => d.modify place.dropLast (setEntry name node)

/-- Makes the folders along steps that do not exist yet, and gives the place they lead to. -/
def makeFolders (d : Disk) (place : Place) : List Step → Except Fault (Disk × Place)
  | [] => .ok (d, place)
  | step :: rest => do
    let next ← d.walkTo true maxLinks place [step]
    match d.node? next with
    | some _ => makeFolders d next rest
    | none => makeFolders (d.set next (.folder [])) next rest

/-- The disk with a folder at the end of a path, and all folders along it. -/
def writeFolder (d : Disk) (place : Place) (text : String) : Disk :=
  match d.makeFolders place (steps text) with
  | .ok (d, _) => d
  | .error _ => d

/-- The disk with the folders around the end of a path, the place of the last one, and the last step
of the path. -/
def prepareParent (d : Disk) (place : Place) (text : String) :
    Except Fault (Disk × Place × List Step) :=
  let steps := steps text
  (d.makeFolders place steps.dropLast).map fun (d, folder) =>
    (d, folder, steps.drop (steps.length - 1))

/-- The disk with a file at the end of a path; a link there is followed. -/
def writeFile (d : Disk) (place : Place) (text : String) (content : ByteArray) : Disk :=
  match d.prepareParent place text with
  | .error _ => d
  | .ok (d, folder, last) =>
    match d.walkTo true maxLinks folder last with
    | .error _ => d
    | .ok target =>
      match d.node? target with
      | some (.folder _) => d
      | _ => d.set target (.file content)

/-- The disk with a link at the end of a path, if nothing is there yet. -/
def writeLink (d : Disk) (place : Place) (text target : String) : Disk :=
  match d.prepareParent place text with
  | .ok (d, folder, [.enter name]) =>
    match d.node? (folder ++ [name]) with
    | none => d.set (folder ++ [name]) (.link target)
    | some _ => d
  | _ => d

/-- The disk without what is at the end of a path; a link itself is removed, not what it leads
to. -/
def remove (d : Disk) (place : Place) (text : String) : Disk :=
  let steps := (steps text).filter (· != .stay)
  match steps.getLast? with
  | some (.enter name) =>
    match d.walkTo false maxLinks place steps.dropLast with
    | .ok folder => d.modify folder (eraseEntry name)
    | .error _ => d
  | _ =>
    match d.walkTo false maxLinks place steps with
    | .ok target =>
      match target.getLast? with
      | some name => d.modify target.dropLast (eraseEntry name)
      | none => d
    | .error _ => d

end CorpusQuery.Disk
