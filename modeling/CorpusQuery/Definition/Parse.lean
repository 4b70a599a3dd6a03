import CorpusQuery.Definition.Columns
import CorpusQuery.Definition.Formulas
import CorpusQuery.Definition.Views

/-!
# Reading definitions

A definition is written as YAML: a mapping with the sections `filters`, `formulas`, `properties` and
`views`, each of which may be left out. The sections are read in this order.
-/

namespace CorpusQuery.Definition

variable {σ : Type}

/-- The YAML value that the text of a definition is; a blank text has none. -/
def rootNode (source : String) : Except Error Yaml.Node :=
  if source.toList.all Text.isBlank then .ok .null
  else (Yaml.Node.ofText source).mapError .yaml

/-- The sections of the definition at `path`. -/
def sections (path : String) : Yaml.Node → Except Error (List (Yaml.Node × Yaml.Node))
  | .mapping entries => .ok entries
  | .null => .ok []
  | node => .error (.definition (.topLevel path node.toValue.kind.name))

/-- Reads a section, or gives the default if it is left out. -/
def readSection {α : Type} (entries : List (Yaml.Node × Yaml.Node)) (name : String) (default : α)
    (read : Yaml.Node → Job σ α) : Job σ α :=
  match Yaml.Node.lookup? name entries with
  | some node => read node
  | none => pure default

/-- The definition with the given text, which is stored at `path` in the corpus. -/
def parse (corpus : Corpus) (path source : String) : Job σ Definition := do
  let root ← Job.ofExcept (rootNode source)
  let entries ← Job.ofExcept (sections path root)
  let filter ← readSection entries "filters" .trivial (Filter.ofNode corpus)
  let formulas ← readSection entries "formulas" [] (formulasSection corpus)
  let columns ← readSection entries "properties" [] (columnsSection corpus)
  let views ← readSection entries "views" [] (viewsSection corpus)
  Job.log .debug "parsed definition"
  pure { path, filter, formulas, columns, views }

/-- The definition stored at a path below the root of the corpus. -/
def load (corpus : Corpus) (disk : Disk) (path : String) : Job σ Definition :=
  match Path.normalize path with
  | none => throw (.outsideRoot path)
  | some relative => do
    if disk.isFile corpus.root relative.text then
      let source ← Job.ofExcept ((disk.readText corpus.root relative.text).mapError .io)
      parse corpus relative.text source
    else throw (.notFound .definition path)

end CorpusQuery.Definition
