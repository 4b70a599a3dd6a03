import CorpusQuery.Text.Pieces

/-!
# Command line arguments

Arguments are options and words. An option is written with its long name after two dashes or with
its short name after one; short names may share a dash. The value of an option is the next argument,
or follows the name, after an equals sign if the name is long. After an argument of two dashes only
words follow. Except for those that count how often they are given, options may come once. A command
says what its words may be, and there may be no more of them.
-/

namespace CorpusQuery.Cli

/-- What an option is for. -/
inductive OptionKind where
  /-- It is given or not. -/
  | flag
  /-- It may be given any number of times. -/
  | count
  /-- It has a value. -/
  | text
  /-- It has a value that is not empty. -/
  | path
  deriving Repr, DecidableEq

/-- An option of a command. -/
structure OptionSpec where
  long : String
  short : Option Char
  kind : OptionKind
  deriving Repr, DecidableEq

/-- Whether an option has a value. -/
def OptionSpec.hasValue (spec : OptionSpec) : Bool :=
  match spec.kind with
  | .text | .path => true
  | .flag | .count => false

/-- What a word may be. -/
inductive WordSpec where
  | any
  | oneOf (names : List String)
  deriving Repr, DecidableEq

/-- Whether a word may stand in a place. -/
def WordSpec.allows : WordSpec → String → Bool
  | .any, _ => true
  | .oneOf names, word => names.contains word

/-- What arguments may be: the options in any order, and the words in theirs. -/
structure ArgumentSpec where
  options : List OptionSpec
  words : List WordSpec
  deriving Repr, DecidableEq

/-- Why arguments are refused, or that help is asked for instead. -/
inductive UsageError where
  | help
  | unknownOption (option : String)
  | valueMissing (option : String)
  | valueUnwanted (option : String)
  | repeated (option : String)
  | conflict (option other : String)
  | unknownCommand (name : String)
  | commandMissing
  | wordMissing
  | wordUnwanted (word : String)
  deriving Repr, DecidableEq

/-- What arguments say: options with their values, words, and what has not been read. -/
structure Arguments where
  options : List (String × String)
  words : List String
  rest : List String
  deriving Repr, DecidableEq

namespace Arguments

/-- No arguments. -/
def empty : Arguments := ⟨[], [], []⟩

/-- How often an option is given. -/
def count (args : Arguments) (option : String) : Nat :=
  (args.options.filter (·.1 == option)).length

/-- Whether an option is given. -/
def has (args : Arguments) (option : String) : Bool := (args.options.lookup option).isSome

/-- The value of an option. -/
def value? (args : Arguments) (option : String) : Option String := args.options.lookup option

/-- The arguments with one more option. -/
def addOption (args : Arguments) (spec : OptionSpec) (value : String) :
    Except UsageError Arguments :=
  if spec.kind != .count && args.has spec.long then .error (.repeated spec.long)
  else if spec.kind == .path && value == "" then .error (.valueMissing spec.long)
  else .ok { args with options := args.options ++ [(spec.long, value)] }

/-- The arguments with one more word. -/
def addWord (specs : List WordSpec) (args : Arguments) (word : String) :
    Except UsageError Arguments :=
  match specs[args.words.length]? with
  | some spec =>
    if spec.allows word then .ok { args with words := args.words ++ [word] }
    else .error (.wordUnwanted word)
  | none => .error (.wordUnwanted word)

end Arguments

/-- How an argument is read. -/
inductive Reading where
  /-- Two dashes: only words follow. -/
  | onlyWords
  /-- A long name, with what follows an equals sign. -/
  | long (name : String) (value : Option String)
  /-- Short names after a dash. -/
  | short (names : List Char)
  /-- Anything else. -/
  | word

/-- How an argument is read. -/
def readingOf (argument : String) : Reading :=
  match argument.toList with
  | ['-', '-'] => .onlyWords
  | '-' :: '-' :: name =>
    match Text.cut? ['='] name with
    | some (name, value) => .long (String.ofList name) (some (String.ofList value))
    | none => .long (String.ofList name) none
  | '-' :: name :: names => .short (name :: names)
  | _ => .word

/-- The value that follows a short name, without the equals sign before it. -/
def attachedValue : List Char → String
  | '=' :: value => String.ofList value
  | value => String.ofList value

/-- Reads the short names of one argument. The last one may be an option that still waits for its
value. -/
def readShort (specs : List OptionSpec) (args : Arguments) :
    List Char → Except UsageError (Arguments × Option OptionSpec)
  | [] => .ok (args, none)
  | name :: names =>
    match specs.find? fun spec => spec.short == some name with
    | none => .error (if name = 'h' then .help else .unknownOption (String.singleton name))
    | some spec =>
      if !spec.hasValue then do readShort specs (← args.addOption spec "") names
      else if names.isEmpty then .ok (args, some spec)
      else do pure (← args.addOption spec (attachedValue names), none)

/-- Reads an option with a long name, which may still wait for its value. -/
def readLong (specs : List OptionSpec) (args : Arguments) (name : String) (value : Option String) :
    Except UsageError (Arguments × Option OptionSpec) :=
  match specs.find? fun spec => spec.long == name with
  | none => .error (if name == "help" && value.isNone then .help else .unknownOption name)
  | some spec =>
    match spec.hasValue, value with
    | true, some value => do pure (← args.addOption spec value, none)
    | true, none => .ok (args, some spec)
    | false, none => do pure (← args.addOption spec "", none)
    | false, some _ => .error (.valueUnwanted name)

/-- Reads the arguments after those in `args`, while the option `waiting` has no value yet. With
`toWord` reading ends before the first word, else it goes on to the end. -/
def readFrom (spec : ArgumentSpec) (toWord : Bool) (args : Arguments)
    (waiting : Option OptionSpec) : List String → Except UsageError Arguments
  | [] =>
    match waiting with
    | some option => .error (.valueMissing option.long)
    | none => .ok args
  | argument :: rest =>
    match waiting, readingOf argument with
    | some option, .word => do readFrom spec toWord (← args.addOption option argument) none rest
    | some option, _ => .error (.valueMissing option.long)
    | none, .word =>
      if toWord then .ok { args with rest := argument :: rest }
      else do readFrom spec toWord (← args.addWord spec.words argument) none rest
    | none, .long name value => do
      let (args, waiting) ← readLong spec.options args name value
      readFrom spec toWord args waiting rest
    | none, .short names => do
      let (args, waiting) ← readShort spec.options args names
      readFrom spec toWord args waiting rest
    | none, .onlyWords => rest.foldlM (Arguments.addWord spec.words) args

/-- Reads arguments to the end, or with `toWord` up to the first word. -/
def readArguments (spec : ArgumentSpec) (toWord : Bool) (arguments : List String) :
    Except UsageError Arguments :=
  readFrom spec toWord .empty none arguments

end CorpusQuery.Cli
