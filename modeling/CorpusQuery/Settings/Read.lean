import CorpusQuery.Settings
import CorpusQuery.Text.Pieces
import CorpusQuery.Yaml.Node

/-!
# Reading settings

Settings are written as YAML: a record with the field `corpora`, a mapping of names to records. A
record is a mapping of its fields. Scalars are taken for what a field asks for, whatever else they
might mean. Unknown fields do not matter.
-/

namespace CorpusQuery.Settings

/-- Refuses a value that is not of the expected kind. -/
def wrongType {α : Type} (expected : String) : Yaml.Node.Reading α :=
  throw ⟨none, .wrongType expected⟩

/-- The text of a scalar, whatever its style and tag. -/
def readText (d : Yaml.Document) (tree : Yaml.Tree Nat) : Yaml.Node.Reading String := do
  match ← d.follow tree with
  | .scalar _ _ text => pure text
  | _ => wrongType "a string"

/-- The text of a scalar that is read as a truth value or an integer: a plain one, or a literal
block with the tag of that type. -/
def readPlain (d : Yaml.Document) (tag : Yaml.Tag) (expected : String) (tree : Yaml.Tree Nat) :
    Yaml.Node.Reading String := do
  match ← d.follow tree with
  | .scalar _ .plain text => pure text
  | .scalar given .literal text => if given = some tag then pure text else wrongType expected
  | _ => wrongType expected

/-- A truth value. -/
def readBool (d : Yaml.Document) (tree : Yaml.Tree Nat) : Yaml.Node.Reading Bool := do
  match Yaml.Plain.bool? (← readPlain d .bool "a truth value" tree) with
  | some b => pure b
  | none => wrongType "a truth value"

/-- A number of seconds, below `2 ^ 64`. Not even zero may have a minus sign. -/
def readSeconds (d : Yaml.Document) (tree : Yaml.Tree Nat) : Yaml.Node.Reading Nat := do
  match Yaml.Plain.natural? (← readPlain d .int "a number of seconds" tree).toList with
  | some n => if n < Nat.pow 2 64 then pure n else wrongType "a number of seconds"
  | none => wrongType "a number of seconds"

/-- The entries of a mapping; an empty plain scalar has none. -/
def readEntries (d : Yaml.Document) (tree : Yaml.Tree Nat) :
    Yaml.Node.Reading (List (Yaml.Tree Nat × Yaml.Tree Nat)) := do
  match ← d.follow tree with
  | .mapping _ entries => pure entries
  | .scalar _ .plain "" => pure []
  | _ => wrongType "a mapping"

/-- The fields of a record, by name. Each may come once; unknown ones are passed over. -/
def readFields (d : Yaml.Document) (known : List String) (seen : List String) :
    List (Yaml.Tree Nat × Yaml.Tree Nat) → Yaml.Node.Reading (List (String × Yaml.Tree Nat))
  | [] => pure []
  | (key, value) :: rest => do
    let name ← readText d key
    if known.contains name then
      if seen.contains name then throw ⟨none, .duplicateKey⟩
      else return (name, value) :: (← readFields d known (name :: seen) rest)
    else readFields d known seen rest

/-- The fields of a record with the known field names. -/
def readRecord (d : Yaml.Document) (known : List String) (tree : Yaml.Tree Nat) :
    Yaml.Node.Reading (List (String × Yaml.Tree Nat)) := do
  readFields d known [] (← readEntries d tree)

/-- The value of a field, or the default if it is left out. -/
def orDefault {α : Type} (fields : List (String × Yaml.Tree Nat)) (name : String) (default : α)
    (read : Yaml.Tree Nat → Yaml.Node.Reading α) : Yaml.Node.Reading α :=
  match fields.lookup name with
  | some tree => read tree
  | none => pure default

/-- The settings of a corpus. -/
def readCorpus (d : Yaml.Document) (tree : Yaml.Tree Nat) : Yaml.Node.Reading CorpusConfig := do
  let fields ← readRecord d
    ["path", "strict_on_definition_parse", "strict_on_field_eval", "cache_ttl_secs"] tree
  let path ← orDefault fields "path" "" (readText d)
  let strictDefinitions ← orDefault fields "strict_on_definition_parse" false (readBool d)
  let strictFields ← orDefault fields "strict_on_field_eval" false (readBool d)
  let ttlSeconds ← orDefault fields "cache_ttl_secs" defaultTtlSeconds (readSeconds d)
  return { path, strictDefinitions, strictFields, ttlSeconds }

/-- The corpora of the settings, added to those in `corpora`; of two with one name the last
counts. -/
def readCorpora (d : Yaml.Document) (corpora : List (String × CorpusConfig)) :
    List (Yaml.Tree Nat × Yaml.Tree Nat) → Yaml.Node.Reading (List (String × CorpusConfig))
  | [] => pure corpora
  | (key, value) :: rest => do
    let name ← readText d key
    let config ← readCorpus d value
    readCorpora d (Dictionary.insert name config corpora) rest

/-- The settings that a document holds. -/
def readRoot (d : Yaml.Document) (tree : Yaml.Tree Nat) : Yaml.Node.Reading Settings := do
  let fields ← readRecord d ["corpora"] tree
  let corpora ← orDefault fields "corpora" [] fun tree => do
    readCorpora d [] (← readEntries d tree)
  return ⟨corpora⟩

/-- The settings that a text holds. A text of blanks or comments only holds the empty settings. -/
def parse (text : String) : Except Error Settings :=
  if text.toList.all Text.isBlank then .ok empty
  else
    match Yaml.Document.ofText text with
    | .error e => .error (.yaml e)
    | .ok d =>
      match d.root with
      | none => .ok empty
      | some tree => ((readRoot d tree).run' 0).mapError .yaml

end CorpusQuery.Settings
