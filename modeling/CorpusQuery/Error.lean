import CorpusQuery.Definition.Problem
import CorpusQuery.Disk
import CorpusQuery.Expr.Error
import CorpusQuery.Yaml.Error

/-!
# Errors

`Error` lists what can stop an operation of the library, `Error.message` words it.
-/

namespace CorpusQuery

/-- Why a property path has no value. -/
inductive FieldError where
  | notFound
  | unknownFileProperty
  | unsupportedPath
  | unknownFormula
  deriving Repr, DecidableEq

/-- The wording of a field error. -/
def FieldError.message : FieldError → String
  | .notFound => "not found"
  | .unknownFileProperty => "unknown file property"
  | .unsupportedPath => "unsupported property path"
  | .unknownFormula => "unknown formula"

/-- What is wrong with the choice of settings or of a corpus. -/
inductive ConfigError where
  | noSettingsFile (path : String)
  | rootNotFolder (path : String)
  | noCorpusSelected
  deriving Repr, DecidableEq

/-- The wording of a configuration error. -/
def ConfigError.message : ConfigError → String
  | .noSettingsFile path => s!"settings file does not exist: {path}"
  | .rootNotFolder path => s!"corpus root is not a directory: {path}"
  | .noCorpusSelected => "select a corpus with --corpus NAME or --root DIR"

/-- The things that are looked up by name. -/
inductive Named where
  | corpus
  | definition
  | view
  deriving Repr, DecidableEq

/-- The word for a thing that is looked up by name. -/
def Named.name : Named → String
  | .corpus => "corpus"
  | .definition => "definition"
  | .view => "view"

/-- Why an operation has no result. -/
inductive Error where
  | io (fault : Disk.Fault)
  | yaml (error : Yaml.Error)
  | compile (error : CompileError)
  | eval (error : EvalError)
  | field (field : String) (reason : FieldError)
  | cell (column document : String) (source : Error)
  | definition (problem : ShapeProblem)
  | sort (property direction view : String)
  | config (error : ConfigError)
  | notFound (kind : Named) (name : String)
  | outsideRoot (path : String)

namespace Error

/-- What a sort error says of the entry at fault. -/
def sortMessage (property direction view : String) : String :=
  s!"invalid sort ({property}, {direction}) in view {view}"

/-- The wording of an error. -/
def message : Error → String
  | .io fault => s!"I/O error: {fault.message}"
  | .yaml error => s!"YAML error: {error.message}"
  | .compile error => error.message
  | .eval error => s!"evaluation error: {error.message}"
  | .field path reason => s!"unsupported field `{path}`: {reason.message}"
  | .cell column document source =>
    s!"could not compute `{column}` for {document}: {source.message}"
  | .definition problem => s!"definition error: {problem.message}"
  | .sort property direction view => s!"sort error: {sortMessage property direction view}"
  | .config error => s!"configuration error: {error.message}"
  | .notFound kind name => s!"{kind.name} not found: {name}"
  | .outsideRoot path => s!"path is outside of the corpus root: {path}"

end Error

end CorpusQuery
