import CorpusQuery.Disk
import CorpusQuery.Job
import CorpusQuery.Path
import CorpusQuery.Settings

/-!
# Corpora

A corpus is a folder of documents under a name, with the settings that say how strictly it is
treated.
-/

namespace CorpusQuery

/-- A corpus: its name, its root folder, and its settings. -/
structure Corpus where
  name : String
  root : Disk.Place
  config : CorpusConfig

namespace Corpus

/-- Whether malformed definitions are errors. -/
def strictDefinitions (c : Corpus) : Bool := c.config.strictDefinitions

/-- Whether expressions that do not compile or evaluate are errors. -/
def strictFields (c : Corpus) : Bool := c.config.strictFields

/-- The corpus of the given name and settings, whose root is where the path of the settings leads to
from the folder `cwd`. -/
def locate (d : Disk) (cwd : Disk.Place) (name : String) (config : CorpusConfig) :
    Except Error Corpus :=
  ((d.locate cwd config.path).mapError .io).map fun root => { name, root, config }

/-- A message to the users of the corpus. -/
def message (c : Corpus) (severity : Severity) (text details : String) : Message :=
  { text, severity, corpus := c.name, details }

/-- Reports a message to the users of the corpus, which also goes to the log. -/
def notify {σ : Type} (c : Corpus) (severity : Severity) (text details : String) : Job σ Unit :=
  .report ((c.message severity text details).events true)

/-- The address of the page that shows the document at a path. -/
def pageUrl (c : Corpus) (path : String) : String :=
  "/renderer/" ++ c.name ++ "/" ++ Path.encode path

end Corpus

end CorpusQuery
