import CorpusQuery.Definition
import CorpusQuery.View.Layout

/-!
# Cells of views

The documents of a view and the values of its columns for each of them. A value that cannot be
computed is an error in a corpus that is strict about fields. In any other corpus the cell is empty,
and one notice for the whole view lists what went wrong.
-/

namespace CorpusQuery

/-- How many problems the notice of a view lists. -/
def maxListedProblems : Nat := 50

/-- A document at hand, with its content if that has been read. -/
structure OpenDocument where
  document : Document
  content : Option Content

namespace Definition

variable {σ : Type}

/-- The documents among the given files that pass a filter. -/
def gather (snapshot : Snapshot) (filter : Filter) : List RelPath → Job σ (List OpenDocument)
  | [] => pure []
  | file :: files => do
    let document := Document.ofPath snapshot.corpus file
    let (passed, content) ← (filter.check snapshot document).aside none
    let rest ← gather snapshot filter files
    pure (if passed then ⟨document, content⟩ :: rest else rest)

/-- The name of the formula that a column stands for. -/
def formulaName? (column : String) : Option String :=
  (Text.after? "formula.".toList column.toList).map String.ofList

/-- The value of a column for a document: a formula, or a property in the form for a column. -/
def value (definition : Definition) (snapshot : Snapshot) (doc : Document) (column : String) :
    Document.Reading Value :=
  match formulaName? column with
  | some name =>
    match definition.formula? name with
    | some formula => formula.evaluate snapshot doc
    | none => throw (.field column .unknownFormula)
  | none => doc.property snapshot true (Text.splitString '.' column)

/-- What is said of a value that could not be computed. -/
def missingValue (column : String) (doc : Document) (e : Error) : String :=
  s!"could not find value {column} from {doc.path}: {e.message}"

/-- The values of columns for a document, and what went wrong. -/
def values (definition : Definition) (snapshot : Snapshot) (doc : Document) :
    List String → Document.Reading (List Value × List String)
  | [] => pure ([], [])
  | column :: columns => do
    let (value, problems) ←
      match ← (definition.value snapshot doc column).attempt with
      | .ok value => pure (value, [])
      | .error e =>
        if snapshot.corpus.strictFields then throw (.cell column doc.path e)
        else pure (Value.str "", [missingValue column doc e])
    let (values, others) ← definition.values snapshot doc columns
    pure (value :: values, problems ++ others)

/-- The values of columns for documents, and what went wrong. -/
def rowsOf (definition : Definition) (snapshot : Snapshot) (columns : List String) :
    List OpenDocument → Job σ (List (List Value) × List String)
  | [] => pure ([], [])
  | opened :: rest => do
    let ((values, problems), _) ←
      (definition.values snapshot opened.document columns).aside opened.content
    let (rows, others) ← definition.rowsOf snapshot columns rest
    pure (values :: rows, problems ++ others)

/-- What is reported about values that could not be computed: one notice. If it cannot list them
all, the log has the rest. -/
def problemEvents (corpus : Corpus) (problems : List String) : List Event :=
  let notice (lines : List String) (useLog : Bool) : List Event :=
    (corpus.message .warning "problems during base rendering"
      (String.intercalate "\n" lines)).events useLog
  if problems.isEmpty then []
  else if problems.length ≤ maxListedProblems then notice problems true
  else
    problems.map (.log .warning ·) ++
      notice (problems.take maxListedProblems ++ ["... see system logs"]) false

end Definition

end CorpusQuery
