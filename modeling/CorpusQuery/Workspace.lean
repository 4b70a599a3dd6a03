import CorpusQuery.View.Materialize

/-!
# Workspaces

A workspace holds corpora on one disk, which share a cache and a clock. Everything that can be done
with corpora over time is a job on it.
-/

namespace CorpusQuery

/-- Corpora with their indexes, the settings, how many milliseconds the views of a corpus live, the
disk, the shared cache, how many tables have been computed, and the time in milliseconds. -/
structure Workspace where
  settings : Settings
  ttl : String → Nat
  disk : Disk
  corpora : List (Corpus × Index)
  cache : Cache Sheet
  made : Nat
  now : Nat

namespace Workspace

variable {α : Type}

/-- A workspace without corpora, at time zero. Its views live as long as the settings say. -/
def ofDisk (settings : Settings) (disk : Disk) : Workspace :=
  { settings, ttl := fun name => 1000 * settings.ttlSeconds name, disk, corpora := [],
    cache := .empty, made := 0, now := 0 }

/-- What materialization works with. -/
def surroundings (w : Workspace) : Surroundings where
  disk := w.disk
  now := w.now
  ttl := w.ttl

/-- The corpus of the given name, with its index. -/
def corpus? (w : Workspace) (name : String) : Option (Corpus × Index) :=
  w.corpora.find? fun entry => entry.1.name == name

/-- The index in use for a corpus. -/
def indexOf (w : Workspace) (corpus : Corpus) : Index :=
  ((w.corpus? corpus.name).map (·.2)).getD ⟨[]⟩

/-- A corpus at this moment. -/
def snapshot (w : Workspace) (corpus : Corpus) : Snapshot :=
  { corpus, disk := w.disk, index := w.indexOf corpus }

/-- Replaces the index of the corpus of the given name. -/
def replaceIndex (name : String) (index : Index) : List (Corpus × Index) → List (Corpus × Index)
  | [] => []
  | entry :: entries =>
    if entry.1.name == name then (entry.1, index) :: entries
    else entry :: replaceIndex name index entries

/-- The workspace with the index of the corpus of the given name replaced. -/
def setIndex (name : String) (index : Index) (w : Workspace) : Workspace :=
  { w with corpora := replaceIndex name index w.corpora }

/-- What the views of a corpus are computed on. -/
def desk (w : Workspace) (corpus : Corpus) : Desk where
  index := w.indexOf corpus
  cache := w.cache
  made := w.made

/-- The workspace with what has become of the desk of a corpus. -/
def putDesk (corpus : Corpus) (desk : Desk) (w : Workspace) : Workspace :=
  { w.setIndex corpus.name desk.index with cache := desk.cache, made := desk.made }

/-- Opens a corpus: its root has to be a folder, whose files are listed. -/
def openCorpus (cwd : Disk.Place) (name : String) (config : CorpusConfig) :
    Job Workspace Corpus := do
  let w ← get
  let corpus ← Job.ofExcept (Corpus.locate w.disk cwd name config)
  let ((), index) ← (w.surroundings.refresh corpus).aside ⟨[]⟩
  modify fun w => { w with corpora := w.corpora ++ [(corpus, index)] }
  pure corpus

/-- Lists the files of a corpus anew. -/
def refresh (corpus : Corpus) : Job Workspace Unit := do
  let w ← get
  let ((), index) ← (w.surroundings.refresh corpus).aside ⟨[]⟩
  modify (setIndex corpus.name index)

/-- Work on the cache. -/
def onCache (job : Surroundings → Job (Cache Sheet) α) : Job Workspace α := do
  let w ← get
  (job w.surroundings).onPart Workspace.cache fun cache w => { w with cache }

/-- Sweeps the cache. -/
def prune : Job Workspace Unit := onCache Surroundings.sweep

/-- Removes a view from the cache. -/
def invalidate (key : CacheKey) : Job Workspace Unit :=
  modify fun w => { w with cache := w.cache.invalidate key }

/-- Reads the cache. -/
def cached? (key : CacheKey) : Job Workspace (Option Sheet) := onCache (·.cached? key)

/-- Lets time pass. -/
def advance (milliseconds : Nat) : Job Workspace Unit :=
  modify fun w => { w with now := w.now + milliseconds }

/-- Changes the disk. -/
def onDisk (change : Disk → Disk) : Job Workspace Unit :=
  modify fun w => { w with disk := change w.disk }

/-- The rows of a view of a definition in a corpus. -/
def materialize (corpus : Corpus) (definition : Definition) (view : String) (force : Bool) :
    Job Workspace Sheet := do
  let w ← get
  (definition.materialize corpus w.surroundings view force).onPart (·.desk corpus) (putDesk corpus)

end Workspace

end CorpusQuery
