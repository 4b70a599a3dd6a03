import CorpusQuery.Dictionary
import CorpusQuery.Error

/-!
# Settings

The corpora a user has configured, each with its folder, how strictly it is treated, and how long
its views stay cached. What is left out has a default.
-/

namespace CorpusQuery

/-- How long a view stays cached if nothing else is said, in seconds. -/
def defaultTtlSeconds : Nat := 3600

/-- The settings of one corpus. -/
structure CorpusConfig where
  path : String := ""
  strictDefinitions : Bool := false
  strictFields : Bool := false
  ttlSeconds : Nat := defaultTtlSeconds
  deriving Repr, DecidableEq

/-- The corpora of a user by name, in increasing order of names. -/
structure Settings where
  corpora : Dictionary CorpusConfig
  deriving Repr, DecidableEq

namespace Settings

/-- The settings without any corpus. -/
def empty : Settings := ⟨[]⟩

/-- The settings of a corpus. -/
def corpus (s : Settings) (name : String) : Except Error CorpusConfig :=
  match s.corpora.lookup name with
  | some config => .ok config
  | none => .error (.notFound .corpus name)

/-- How long the views of a corpus stay cached, in seconds. -/
def ttlSeconds (s : Settings) (name : String) : Nat :=
  ((s.corpora.lookup name).map CorpusConfig.ttlSeconds).getD defaultTtlSeconds

end Settings

end CorpusQuery
