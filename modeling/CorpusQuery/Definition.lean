import CorpusQuery.View.Basic

/-!
# Definitions

A definition holds views of a corpus with what they share: a filter, named formulas, and texts for
the headings of columns.
-/

namespace CorpusQuery

/-- A named expression, which views show as a column. -/
structure Formula where
  source : String
  expr : Expr

/-- The value of a formula for a document. -/
def Formula.evaluate (snapshot : Snapshot) (doc : Document) (formula : Formula) :
    Document.Reading Value :=
  formula.expr.evaluate (doc.scope snapshot)

/-- What is said about a column: the text of its heading, and facts without a meaning here. -/
structure ColumnInfo where
  heading : Option String
  others : Dictionary Value
  deriving Inhabited

/-- A definition: the path of its text below the root, and what it holds. -/
structure Definition where
  path : String
  filter : Filter
  formulas : Dictionary Formula
  columns : Dictionary ColumnInfo
  views : List View

namespace Definition

/-- The formula of the given name. -/
def formula? (definition : Definition) (name : String) : Option Formula :=
  definition.formulas.lookup name

/-- The first view of the given name. -/
def view (definition : Definition) (name : String) : Except Error View :=
  match definition.views.find? fun view => view.name == name with
  | some view => .ok view
  | none => .error (.notFound .view name)

/-- The heading of a column: the one it was given, or the column itself. -/
def heading (definition : Definition) (column : String) : String :=
  ((definition.columns.lookup column).bind ColumnInfo.heading).getD column

/-! ## Filters that do not compile

Filters are compiled when they are read, but what came of it shows only when they are used. A check
of the definition brings it out before that. -/

/-- The name under which a check speaks of the filter that all views share. -/
def sharedFilterName : String := "filters"

/-- The filters of a definition with the names of their owners. -/
def filters (definition : Definition) : List (String × Filter) :=
  (sharedFilterName, definition.filter) :: definition.views.map fun view => (view.name, view.filter)

/-- The expressions in filters that do not compile, with the owners of the filters. -/
def brokenFilters (definition : Definition) : List (String × CompileError) :=
  definition.filters.flatMap fun (owner, filter) => filter.compileErrors.map fun e => (owner, e)

/-- Reports the expressions in filters that do not compile. -/
def reportBroken {σ : Type} (corpus : Corpus) (definition : Definition) : Job σ Unit :=
  definition.brokenFilters.forM fun (owner, e) =>
    corpus.notify .error s!"filter in {owner} does not compile" e.message

end Definition

end CorpusQuery
