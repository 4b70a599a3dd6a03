import CorpusQuery.Definition
import CorpusQuery.Definition.Shape

/-!
# Formulas of definitions

The section of a definition that names expressions. One that does not compile is an error in a
corpus that is strict about fields; in any other corpus it is reported, and its value is the empty
text.
-/

namespace CorpusQuery.Definition

/-- The formula with the given name and text. -/
def readFormula {σ : Type} (corpus : Corpus) (name source : String) : Job σ Formula :=
  match Expr.compile source with
  | .ok expr => pure { source, expr }
  | .error e =>
    if corpus.strictFields then throw (.compile e)
    else do
      corpus.notify .warning s!"could not compile formula `{name}`" e.message
      pure { source, expr := .literal (.str "") }

/-- The formulas that entries name, added to those in `formulas`. -/
def readFormulas {σ : Type} (corpus : Corpus) (formulas : Dictionary Formula) :
    List (Yaml.Node × Yaml.Node) → Job σ (Dictionary Formula)
  | [] => pure formulas
  | (key, body) :: entries => do
    let formula ← readFormula corpus key.describe body.describe
    readFormulas corpus (Dictionary.insert key.describe formula formulas) entries

/-- The section that names expressions. -/
def formulasSection {σ : Type} (corpus : Corpus) : Yaml.Node → Job σ (Dictionary Formula)
  | .mapping entries => readFormulas corpus [] entries
  | _ => do
    corpus.reject .formulasNotMapping
    pure []

end CorpusQuery.Definition
