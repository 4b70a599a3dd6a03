import CorpusQuery.Corpus
import CorpusQuery.Filter
import CorpusQuery.Yaml.Node

/-!
# Shapes of definitions

How a malformed part of a definition is met, and how filters are read. A corpus that is strict about
definitions refuses the part, any other corpus warns and does without it.
-/

namespace CorpusQuery

/-- Refuses a malformed part of a definition, or warns about it. -/
def Corpus.reject {σ : Type} (corpus : Corpus) (problem : ShapeProblem) : Job σ Unit :=
  if corpus.strictDefinitions then throw (.definition problem)
  else corpus.notify .warning "bad base definition" problem.message

namespace Filter

/-- Puts filters under the operator with the given name. -/
def underOperator? : String → Option (List Filter → Filter)
  | "and" => some .all
  | "or" => some .any
  | _ => none

/-- A filter that is malformed: it lets every document pass. -/
def malformed {σ : Type} (corpus : Corpus) (problem : ShapeProblem) : Job σ Filter := do
  corpus.reject problem
  pure .trivial

mutual

/-- The filter that a node stands for: an expression, or an operator over a list of filters. -/
def ofNode {σ : Type} (corpus : Corpus) : Yaml.Node → Job σ Filter
  | .null => pure .trivial
  | .str source => pure (.field (.ofSource source))
  | .mapping [(key, .sequence items)] =>
    match key.string?.bind underOperator? with
    | some operator => do pure (operator (← ofNodes corpus items))
    | none => malformed corpus (.filterOperator key.describe)
  | .mapping [(key, _)] => malformed corpus (.filterList key.describe)
  | .mapping entries => malformed corpus (.filterKeys (entries.map fun entry => entry.1.describe))
  | node => malformed corpus (.filterForm node.describe)
termination_by structural node => node

/-- The filters that nodes stand for. -/
def ofNodes {σ : Type} (corpus : Corpus) : List Yaml.Node → Job σ (List Filter)
  | [] => pure []
  | item :: items => do
    let filter ← ofNode corpus item
    let filters ← ofNodes corpus items
    pure (filter :: filters)
termination_by structural items => items

end

end Filter

end CorpusQuery
