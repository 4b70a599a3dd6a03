import CorpusQuery.Cli.Command
import CorpusQuery.Cli.Text
import CorpusQuery.Definition
import CorpusQuery.Settings.Read
import CorpusQuery.Workspace

/-!
# Running commands

What a command does, from its arguments to what it prints, on a given disk. A script for completion
is printed without looking at any settings. All other commands begin with the settings, and an
expression is compiled before a corpus is opened. Messages are shown at the end, and after them the
error that a command failed with.
-/

namespace CorpusQuery.Cli

/-- Where a command runs: the disk, the folder it runs in, the settings file that the environment
names, the one that is used if it exists, and the scripts that complete commands in a shell. These
come from the library that reads the command line, and nothing here looks into them. -/
structure Host where
  disk : Disk
  folder : Disk.Place
  namedSettings : Option String
  defaultSettings : Option String
  completionScript : Shell → String

/-- What a command leaves behind: its exit code, its log, and the text on its two outputs. -/
structure Reply where
  exit : Nat
  log : List String := []
  output : String := ""
  diagnostics : String := ""
  deriving Repr, DecidableEq

/-- What a command prints, and whether it succeeded. -/
structure Printed where
  text : String
  success : Bool := true

namespace Host

/-- The settings in a file. -/
def loadSettings (host : Host) (path : String) : Except Error Settings := do
  if host.disk.isFile host.folder path then
    Settings.parse (← (host.disk.readText host.folder path).mapError .io)
  else throw (.config (.noSettingsFile path))

/-- The settings in use: those of the file that is asked for, else of the one that the environment
names, else of the default file. Only the last one need not exist. -/
def settings (host : Host) (asked : Option String) : Except Error Settings :=
  match asked <|> host.namedSettings, host.defaultSettings with
  | some path, _ => host.loadSettings path
  | none, none => .ok .empty
  | none, some path =>
    match host.disk.find host.folder path with
    | .ok _ => host.loadSettings path
    | .error _ => .ok .empty

/-- The name and settings of the corpus that is chosen. -/
def choose (host : Host) (settings : Settings) : CorpusChoice → Except Error (String × CorpusConfig)
  | .folder path => do
    if host.disk.isFolder host.folder path then
      let place ← (host.disk.locate host.folder path).mapError .io
      pure (place.getLast?.getD "root", { path })
    else throw (.config (.rootNotFolder path))
  | .named name => (settings.corpus name).map fun config => (name, config)
  | .only =>
    match settings.corpora with
    | [(name, config)] => .ok (name, config)
    | _ => .error (.config .noCorpusSelected)

/-- Opens the corpus that is chosen. -/
def openCorpus (host : Host) (choice : CorpusChoice) : Job Workspace Corpus := do
  let (name, config) ← Job.ofExcept (host.choose (← get).settings choice)
  Workspace.openCorpus host.folder name config

/-- Opens the corpus that is chosen, and loads a definition from it. -/
def openDefinition (host : Host) (choice : CorpusChoice) (base : String) :
    Job Workspace (Corpus × Definition) := do
  let corpus ← host.openCorpus choice
  let definition ← Definition.load corpus (← get).disk base
  pure (corpus, definition)

/-- The name of the view to show: the one asked for, else the first one. -/
def viewName (definition : Definition) (base : String) : Option String → Except Error String
  | some name => .ok name
  | none =>
    match definition.views with
    | view :: _ => .ok view.name
    | [] => .error (.notFound .view ("any view in " ++ base))

/-- Shows a view. -/
def showView (host : Host) (base : String) (view : Option String) (choice : CorpusChoice)
    (json refresh : Bool) : Job Workspace Printed := do
  let (corpus, definition) ← host.openDefinition choice base
  let name ← Job.ofExcept (viewName definition base view)
  let rows := (← Workspace.materialize corpus definition name refresh).rows
  pure { text := if json then jsonText (.arr (rows.map Row.toJson)) else tableText rows }

/-- Lists the views of a definition. -/
def listViews (host : Host) (base : String) (choice : CorpusChoice) : Job Workspace Printed := do
  let (_, definition) ← host.openDefinition choice base
  let lines := definition.views.map fun view => tableLine [view.name, view.kind.name]
  pure { text := unlines (if lines.isEmpty then ["No views defined."] else lines) }

/-- Checks a definition. It fails if anything worse than a hint is reported. -/
def check (host : Host) (base : String) (choice : CorpusChoice) : Job Workspace Printed := do
  let ((corpus, definition), loading) ← (host.openDefinition choice base).listen
  let ((), checking) ← (definition.reportBroken corpus).listen
  let failed := (Event.messages (loading ++ checking)).any fun m => Severity.warning ≤ m.severity
  let views := definition.views.length
  let formulas := definition.formulas.length
  let problems := if failed then ", with problems" else ""
  pure
    { text := unlines [s!"{definition.path}: {views} views, {formulas} formulas{problems}"]
      success := !failed }

/-- The value of an expression for each document of a corpus, in order. -/
def evaluateAll (snapshot : Snapshot) (expr : Expr) :
    List RelPath → Job Workspace (List (String × Except Error Value))
  | [] => pure []
  | file :: files => do
    let doc := Document.ofPath snapshot.corpus file
    let (result, _) ← (expr.evaluate (doc.scope snapshot)).attempt.aside none
    let rest ← evaluateAll snapshot expr files
    pure ((doc.path, result) :: rest)

/-- A document and the value of an expression for it, or why there is none, as a line. -/
def evaluationLine : String × Except Error Value → String
  | (path, .ok value) => tableLine [path, cellText value]
  | (path, .error e) => tableLine [path, "error: " ++ e.message]

/-- A document and the value of an expression for it, or why there is none, as JSON. -/
def evaluationJson : String × Except Error Value → Json
  | (path, .ok value) => .obj [("path", .str path), ("value", value.toJson)]
  | (path, .error e) => .obj [("error", .str e.message), ("path", .str path)]

/-- Evaluates an expression for every document. -/
def eval (host : Host) (source : String) (choice : CorpusChoice) (json : Bool) :
    Job Workspace Printed := do
  let expr ← Job.ofExcept ((Expr.compile source).mapError .compile)
  let corpus ← host.openCorpus choice
  let snapshot := (← get).snapshot corpus
  let results ← evaluateAll snapshot expr snapshot.index.files
  pure
    { text := if json then jsonText (.arr (results.map evaluationJson))
        else unlines (results.map evaluationLine) }

/-- Lists the corpora of the settings. -/
def listCorpora (settings : Settings) : Printed where
  text := unlines
    (if settings.corpora.isEmpty then ["No corpora configured."]
      else settings.corpora.map fun (name, config) => tableLine [name, config.path])

/-- Does a command with the settings. There is nothing to do for completion, which needs none. -/
def execute (host : Host) : Command → Job Workspace Printed
  | .view base view corpus json refresh => host.showView base view corpus json refresh
  | .views base corpus => host.listViews base corpus
  | .check base corpus => host.check base corpus
  | .eval expr corpus json => host.eval expr corpus json
  | .corpora => do pure (listCorpora (← get).settings)
  | .completions _ => pure { text := "" }

/-- The written path of the corpus that a request needs. -/
def corpusPath? (host : Host) (request : Request) : Option String :=
  match request.command.corpus? with
  | none => none
  | some (.folder path) => some path
  | some choice =>
    match host.settings request.config with
    | .ok settings => (host.choose settings choice).toOption.map fun chosen => chosen.2.path
    | .error _ => none

/-- The reply to a request. Completion is answered before the settings are looked for. -/
def reply (host : Host) (request : Request) : Reply :=
  match request.command with
  | .completions shell => { exit := 0, output := host.completionScript shell }
  | command =>
    match host.settings request.config with
    | .error e => { exit := 1, diagnostics := errorText e }
    | .ok settings =>
      let done := (host.execute command).run (Workspace.ofDisk settings host.disk)
      let log := Event.logLinesFrom request.logLevel done.events
      let shown := String.join ((Event.messages done.events).map messageText)
      match done.result with
      | .ok printed =>
        { exit := if printed.success then 0 else 1, log, output := printed.text,
          diagnostics := shown }
      | .error e => { exit := 1, log, diagnostics := shown ++ errorText e }

end Host

/-- How the program is used. -/
def usage : String := unlines
  ["Usage: docbase [--config FILE] [-v] [-q] COMMAND",
    "",
    "Commands:",
    "  view BASE [VIEW] [--json] [--refresh]  Show a view of a definition",
    "  views BASE                             List the views of a definition",
    "  check BASE                             Read a definition and report problems",
    "  eval EXPR [--json]                     Evaluate an expression for every document",
    "  corpora                                List the configured corpora",
    "",
    "The commands on a definition or expression work on the corpus chosen with",
    "--corpus NAME or --root FOLDER."]

/-- The reply to arguments. -/
def run (host : Host) (arguments : List String) : Reply :=
  match Request.ofArguments arguments with
  | .ok request => host.reply request
  | .error .help => { exit := 0, output := usage }
  | .error _ => { exit := 2, diagnostics := usage }

end CorpusQuery.Cli
