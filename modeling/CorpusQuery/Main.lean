import CorpusQuery.Cli.Run
import CorpusQuery.Disk.Edit

/-!
# The program

Takes a picture of the files that a command may need, and lets the command run on it. A link is kept
as a link to what it leads to in the end.
-/

namespace CorpusQuery

/-- The disk with an entry of a folder, all that is below it, and what the links below it lead
to. -/
partial def addEntry (d : Disk) (entry : IO.FS.DirEntry) : IO Disk := do
  let text := entry.path.toString
  if (d.find [] text).isOk then return d
  match (← entry.path.symlinkMetadata).type with
  | .file => return d.writeFile [] text (← IO.FS.readBinFile entry.path)
  | .dir => (← entry.path.readDir).foldlM addEntry (d.writeFolder [] text)
  | .symlink =>
    match ← (IO.FS.realPath entry.path).toBaseIO with
    | .error _ => return d.writeLink [] text ""
    | .ok target =>
      let d ← addEntry d ⟨target.parent.getD target, target.fileName.getD ""⟩
      return d.writeLink [] text target.toString
  | .other => return d

/-- The disk with what a path leads to from the folder `folder`. -/
def addPath (folder : String) (d : Disk) (path : String) : IO Disk := do
  let text := Path.join folder path
  match ← (IO.FS.realPath text).toBaseIO with
  | .error _ => return d
  | .ok target =>
    let d ← addEntry d ⟨target.parent.getD target, target.fileName.getD ""⟩
    return d.writeLink [] text target.toString

/-- The file with the settings of the user: in the folder for settings that the environment names,
else in the one below the home folder. -/
def userSettings : IO (Option String) := do
  let name := "docbase/config.yaml"
  match ← IO.getEnv "XDG_CONFIG_HOME", ← IO.getEnv "HOME" with
  | some folder, home =>
    if Path.isAbsolute folder then return some (Path.join folder name)
    else return home.map fun home => Path.join home (Path.join ".config" name)
  | none, home => return home.map fun home => Path.join home (Path.join ".config" name)

/-- Runs a command on a picture of the files it may need. There is no library here that writes scripts
for completion, and the ones that are printed are empty. -/
def runCommand (arguments : List String) : IO Cli.Reply := do
  let folder := (← IO.FS.realPath (← IO.currentDir)).toString
  let namedSettings ← IO.getEnv "DOCBASE_CONFIG"
  let defaultSettings ← userSettings
  let place := (Path.normalize (String.ofList (folder.toList.drop 1))).getD []
  let host (disk : Disk) : Cli.Host :=
    { disk, folder := place, namedSettings, defaultSettings, completionScript := fun _ => "" }
  let start := Disk.empty.writeFolder [] folder
  match Cli.Request.ofArguments arguments with
  | .error _ => return Cli.run (host start) arguments
  | .ok request =>
    let files := request.config.toList ++ namedSettings.toList ++ defaultSettings.toList
    let disk ← files.foldlM (addPath folder) start
    let disk ← ((host disk).corpusPath? request).toList.foldlM (addPath folder) disk
    return (host disk).reply request

end CorpusQuery

/-- The program: prints what a command replies. -/
def main (arguments : List String) : IO UInt32 := do
  let reply ← CorpusQuery.runCommand arguments
  reply.log.forM IO.eprintln
  IO.print reply.output
  IO.eprint reply.diagnostics
  return reply.exit.toUInt32
