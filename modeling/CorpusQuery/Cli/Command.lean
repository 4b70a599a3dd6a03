import CorpusQuery.Cli.Arguments
import CorpusQuery.Message

/-!
# Commands

What can be asked on the command line: to show a view, to list views, to check a definition, to
evaluate an expression for every document, to list the corpora, or to print a script that completes
commands in a shell.
-/

namespace CorpusQuery.Cli

/-- Which corpus to work on: the only one there is, one of the settings, or a folder. -/
inductive CorpusChoice where
  | only
  | named (name : String)
  | folder (path : String)
  deriving Repr, DecidableEq

/-- The shells that commands can be completed in. -/
inductive Shell where
  | bash
  | elvish
  | fish
  | powershell
  | zsh
  deriving Repr, DecidableEq

/-- The name of a shell. -/
def Shell.name : Shell → String
  | .bash => "bash"
  | .elvish => "elvish"
  | .fish => "fish"
  | .powershell => "powershell"
  | .zsh => "zsh"

/-- All shells. -/
def Shell.all : List Shell := [.bash, .elvish, .fish, .powershell, .zsh]

/-- The shell of the given name. -/
def Shell.ofName? (name : String) : Option Shell := Shell.all.find? (·.name == name)

/-- A command. -/
inductive Command where
  | view (base : String) (view : Option String) (corpus : CorpusChoice) (json refresh : Bool)
  | views (base : String) (corpus : CorpusChoice)
  | check (base : String) (corpus : CorpusChoice)
  | eval (expr : String) (corpus : CorpusChoice) (json : Bool)
  | corpora
  | completions (shell : Shell)
  deriving Repr, DecidableEq

/-- The corpus that a command works on. -/
def Command.corpus? : Command → Option CorpusChoice
  | .view _ _ corpus _ _ | .views _ corpus | .check _ corpus | .eval _ corpus _ => some corpus
  | .corpora | .completions _ => none

/-- A command, with the settings file to use and how much to log. -/
structure Request where
  config : Option String
  verbose : Nat
  quiet : Bool
  command : Command
  deriving Repr, DecidableEq

/-- The least level of the log lines that are shown. -/
def Request.logLevel (request : Request) : LogLevel :=
  if request.quiet then .warning else if request.verbose = 0 then .info else .debug

/-- The options of all commands, which may come before or after the name of the command. -/
def globalOptions : List OptionSpec :=
  [⟨"config", none, .path⟩, ⟨"verbose", some 'v', .count⟩, ⟨"quiet", some 'q', .flag⟩]

/-- The options that choose a corpus. -/
def corpusOptions : List OptionSpec :=
  [⟨"corpus", some 'c', .text⟩, ⟨"root", none, .path⟩]

/-- The option for output in JSON. -/
def jsonOption : OptionSpec := ⟨"json", none, .flag⟩

/-- The option to compute a view anew. -/
def refreshOption : OptionSpec := ⟨"refresh", none, .flag⟩

/-- Refuses arguments with both of two options. -/
def exclude (args : Arguments) (option other : String) : Except UsageError Unit :=
  if args.has option && args.has other then .error (.conflict option other) else .ok ()

/-- The arguments of a command with the given options of its own, and the given words. -/
def commandArguments (options : List OptionSpec) (words : List WordSpec) (rest : List String) :
    Except UsageError Arguments := do
  let args ← readArguments ⟨globalOptions ++ options, words⟩ false rest
  exclude args "quiet" "verbose"
  exclude args "corpus" "root"
  pure args

/-- The corpus that arguments choose. -/
def corpusChoice (args : Arguments) : CorpusChoice :=
  match args.value? "root", args.value? "corpus" with
  | some path, _ => .folder path
  | none, some name => .named name
  | none, none => .only

/-- The first word of arguments. -/
def firstWord (args : Arguments) : Except UsageError String :=
  match args.words with
  | [] => .error .wordMissing
  | word :: _ => .ok word

/-- The names of the commands that work on corpora. -/
def commandNames : List String := ["view", "views", "check", "eval", "corpora"]

/-- What a question for help comes to. Each command has help, and nothing below a command has. -/
def helpOn (topics : List String) : UsageError :=
  match topics with
  | [] => .help
  | topic :: below =>
    if (commandNames ++ ["completions", "help"]).contains topic then
      match below with
      | [] => .help
      | name :: _ => .unknownCommand name
    else .unknownCommand topic

/-- The command of the given name, with the arguments after the name. -/
def readCommand (name : String) (rest : List String) : Except UsageError (Command × Arguments) :=
  match name with
  | "view" => do
    let args ← commandArguments (corpusOptions ++ [jsonOption, refreshOption]) [.any, .any] rest
    let base ← firstWord args
    pure (.view base args.words[1]? (corpusChoice args) (args.has "json") (args.has "refresh"), args)
  | "views" => do
    let args ← commandArguments corpusOptions [.any] rest
    pure (.views (← firstWord args) (corpusChoice args), args)
  | "check" => do
    let args ← commandArguments corpusOptions [.any] rest
    pure (.check (← firstWord args) (corpusChoice args), args)
  | "eval" => do
    let args ← commandArguments (corpusOptions ++ [jsonOption]) [.any] rest
    pure (.eval (← firstWord args) (corpusChoice args) (args.has "json"), args)
  | "corpora" => do
    let args ← commandArguments [] [] rest
    pure (.corpora, args)
  | "completions" => do
    let args ← commandArguments [] [.oneOf (Shell.all.map Shell.name)] rest
    match Shell.ofName? (← firstWord args) with
    | some shell => pure (.completions shell, args)
    | none => throw .wordMissing
  | "help" => .error (helpOn rest)
  | _ => .error (.unknownCommand name)

/-- What arguments ask for. -/
def Request.ofArguments (arguments : List String) : Except UsageError Request := do
  let first ← readArguments ⟨globalOptions, []⟩ true arguments
  match first.rest with
  | [] => throw .commandMissing
  | name :: rest =>
    let (command, args) ← readCommand name rest
    exclude first "quiet" "verbose"
    pure
      { config := args.value? "config" <|> first.value? "config"
        verbose := if args.has "verbose" then args.count "verbose" else first.count "verbose"
        quiet := args.has "quiet" || first.has "quiet"
        command }

end CorpusQuery.Cli
