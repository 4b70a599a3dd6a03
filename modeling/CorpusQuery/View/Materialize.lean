import CorpusQuery.Cache
import CorpusQuery.Definition.Parse
import CorpusQuery.View.Cells
import CorpusQuery.View.Row
import CorpusQuery.View.Sorting

/-!
# Materialization

`Definition.materialize` computes the rows of a view from the disk as it is, or takes them from the
cache. What it stores in the cache is what it gives, and if it fails it stores nothing.
-/

namespace CorpusQuery

/-- The rows of a view. Each table that is computed has a number of its own. -/
structure Sheet where
  number : Nat
  rows : List Row

/-- What materialization works on: the index of the corpus, the cache of all corpora, and how many
tables have been computed. -/
structure Desk where
  index : Index
  cache : Cache Sheet
  made : Nat

/-- What materialization works with: the disk, the time in milliseconds, and how long the views of a
corpus live in the cache. -/
structure Surroundings where
  disk : Disk
  now : Nat
  ttl : String → Nat

namespace Surroundings

/-- What is reported when sweeping the cache has removed entries. -/
def sweepEvents {α : Type} (around : Surroundings) (cache : Cache α) : List Event :=
  if (cache.prune around.ttl around.now).size < cache.size then
    [.log .debug "expired cached views"]
  else []

/-- Reads the cache. -/
def cached? (around : Surroundings) (key : CacheKey) : Job (Cache Sheet) (Option Sheet) := do
  let cache ← get
  Job.report (around.sweepEvents cache)
  modifyGet fun cache => cache.get around.ttl around.now key

/-- Stores a table in the cache. -/
def store (around : Surroundings) (key : CacheKey) (sheet : Sheet) : Job (Cache Sheet) Unit := do
  let cache ← get
  Job.report (around.sweepEvents cache)
  set (cache.put around.ttl around.now key sheet)

/-- Sweeps the cache. -/
def sweep (around : Surroundings) : Job (Cache Sheet) Unit := do
  let cache ← get
  Job.report (around.sweepEvents cache)
  set (cache.prune around.ttl around.now)

/-- Lists the files of a corpus anew. -/
def refresh (around : Surroundings) (corpus : Corpus) : Job Index Unit := do
  set (← Job.ofExcept ((Index.ofDisk around.disk corpus.root).mapError .io))
  Job.report Index.listed

end Surroundings

namespace Desk

variable {α : Type}

/-- Work on the index. -/
def onIndex (job : Job Index α) : Job Desk α :=
  job.onPart index fun index desk => { desk with index }

/-- Work on the cache. -/
def onCache (job : Job (Cache Sheet) α) : Job Desk α :=
  job.onPart cache fun cache desk => { desk with cache }

/-- Gives rows the next number. -/
def number (rows : List Row) : Job Desk Sheet :=
  modifyGet fun desk => ({ number := desk.made, rows }, { desk with made := desk.made + 1 })

end Desk

namespace Definition

/-- Puts the cells at the given positions into a row. A cell is taken out of its place, so that a
second look would find nothing there. -/
def takeCells (definition : Definition) (columns : List String) :
    List Nat → List Value → Row → Row
  | [], _, row => row
  | position :: positions, cells, row =>
    takeCells definition columns positions (cells.set position .null)
      (row.insert (definition.heading (columns.getD position "")) (Table.cellAt cells position))

/-- The row that a layout shows of the cells of a document. -/
def row (definition : Definition) (layout : Layout) (cells : List Value) : Row :=
  definition.takeCells layout.columns layout.shown cells Row.empty

/-- The rows of a view from the files in an index. -/
def rows {σ : Type} (definition : Definition) (snapshot : Snapshot) (view : View) :
    Job σ (List Row) := do
  let corpus := snapshot.corpus
  let documents ← gather snapshot (definition.filter.both view.filter) snapshot.index.files
  let sorts ← definition.sortColumns corpus view.name view.sorts
  let layout := Layout.ofView view sorts
  let (values, problems) ← definition.rowsOf snapshot layout.columns documents
  Job.report (problemEvents corpus problems)
  let table := values.map fun row => row.map Value.cell
  let plan ← sortPlan corpus view layout sorts
  let sorted := Table.sort (Table.numericColumns layout.columns.length table) plan table
  pure (sorted.map (definition.row layout))

/-- The key of a view in the cache. -/
def cacheKey (definition : Definition) (corpus : Corpus) (view : View) : CacheKey where
  corpus := corpus.name
  definition := definition.path
  view := view.name

/-- Computes a view anew and stores it. -/
def recompute (definition : Definition) (corpus : Corpus) (around : Surroundings) (view : View) :
    Job Desk Sheet := do
  Desk.onIndex (around.refresh corpus)
  let index := (← get).index
  let rows ← definition.rows { corpus, disk := around.disk, index } view
  Job.log .info "materialized view"
  let sheet ← Desk.number rows
  Desk.onCache (around.store (definition.cacheKey corpus view) sheet)
  pure sheet

/-- The rows of the view of the given name: from the cache if they are there and `force` is not set,
else computed anew. -/
def materialize (definition : Definition) (corpus : Corpus) (around : Surroundings) (name : String)
    (force : Bool) : Job Desk Sheet := do
  let view ← Job.ofExcept (definition.view name)
  if force then definition.recompute corpus around view
  else
    match ← Desk.onCache (around.cached? (definition.cacheKey corpus view)) with
    | some sheet =>
      Job.log .debug "view served from cache"
      pure sheet
    | none => definition.recompute corpus around view

end Definition

end CorpusQuery
