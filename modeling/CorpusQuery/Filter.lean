import CorpusQuery.Document.Property
import CorpusQuery.Expr.Parser

/-!
# Filters

A filter is an expression, or several filters of which all or at least one have to pass. A filter
that does not compile or evaluate is an error in a corpus that is strict about fields. In any other
corpus it is reported and lets the document pass, so that a mistake never hides a document.
-/

namespace CorpusQuery

/-- An expression as a filter, together with what became of compiling it. -/
structure FieldFilter where
  source : String
  compiled : Except CompileError Expr
  compiled_eq : compiled = Expr.compile source

/-- The filter with the given text. -/
def FieldFilter.ofSource (source : String) : FieldFilter := ⟨source, Expr.compile source, rfl⟩

/-- A condition on documents. -/
inductive Filter where
  | trivial
  | field (filter : FieldFilter)
  | all (children : List Filter)
  | any (children : List Filter)

/-- Whether a document passes an expression. -/
def FieldFilter.check (snapshot : Snapshot) (doc : Document) (filter : FieldFilter) :
    Document.Reading Bool :=
  let corpus := snapshot.corpus
  match filter.compiled with
  | .error e =>
    if corpus.strictFields then throw (.compile e)
    else do
      corpus.notify .warning s!"could not parse filter `{filter.source}`" e.message
      pure true
  | .ok expr => do
    match ← (expr.check (doc.scope snapshot)).attempt with
    | .ok passed => pure passed
    | .error e =>
      if corpus.strictFields then throw e
      else
        corpus.notify .warning s!"could not apply filter `{filter.source}` to {doc.path}" e.message
        pure true

namespace Filter

mutual

/-- Whether a document passes. The children of a filter are asked from left to right, up to the
first one that decides. -/
def check (snapshot : Snapshot) (doc : Document) : Filter → Document.Reading Bool
  | .trivial => pure true
  | .field filter => filter.check snapshot doc
  | .all children => checkAll snapshot doc children
  | .any children => checkAny snapshot doc children
termination_by structural filter => filter

/-- Whether a document passes all filters. -/
def checkAll (snapshot : Snapshot) (doc : Document) : List Filter → Document.Reading Bool
  | [] => pure true
  | child :: children => do
    if ← check snapshot doc child then checkAll snapshot doc children else pure false
termination_by structural children => children

/-- Whether a document passes one of the filters. -/
def checkAny (snapshot : Snapshot) (doc : Document) : List Filter → Document.Reading Bool
  | [] => pure false
  | child :: children => do
    if ← check snapshot doc child then pure true else checkAny snapshot doc children
termination_by structural children => children

end

mutual

/-- The expressions of a filter that do not compile, from left to right. -/
def compileErrors : Filter → List CompileError
  | .trivial => []
  | .field filter =>
    match filter.compiled with
    | .ok _ => []
    | .error e => [e]
  | .all children => compileErrorsIn children
  | .any children => compileErrorsIn children
termination_by structural filter => filter

/-- The expressions of filters that do not compile. -/
def compileErrorsIn : List Filter → List CompileError
  | [] => []
  | child :: children => compileErrors child ++ compileErrorsIn children
termination_by structural children => children

end

/-- The filter that asks for both; a trivial one is left out. -/
def both : Filter → Filter → Filter
  | .trivial, filter => filter
  | filter, .trivial => filter
  | left, right => .all [left, right]

end Filter

end CorpusQuery
