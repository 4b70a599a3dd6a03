import CorpusQuery.Proofs.Expr.Mentioned

/-!
# What expressions are evaluated for

An expression is evaluated for a scope without a state, or for a document that is read on the way.
What a document answers does not depend on what it was asked before. So the value of an expression
for a document is its value in the scope of the answers of the document, each of them being the
first one (`Subject.evaluate_eq`), and a law that holds in all scopes without a state holds for
documents.
-/

namespace CorpusQuery

namespace Job

variable {σ α β : Type} {known : σ → Prop}

/-! ## Jobs that always give the same -/

/-- A job that gives one result from all known states, and ends in such a state. -/
def Gives (known : σ → Prop) (job : Job σ α) (result : Except Error α) : Prop :=
  ∀ s, known s → (job.run s).result = result ∧ known (job.run s).state

theorem Gives.pure (a : α) : Gives known (pure a : Job σ α) (.ok a) := fun _ hs => ⟨rfl, hs⟩

theorem Gives.throw (e : Error) : Gives known (throw e : Job σ α) (.error e) :=
  fun _ hs => ⟨rfl, hs⟩

theorem Gives.bind {job : Job σ α} {result : Except Error α} {next : α → Job σ β}
    {rest : α → Except Error β} (h : Gives known job result)
    (hnext : ∀ a, Gives known (next a) (rest a)) :
    Gives known (job >>= next) (result >>= rest) := by
  intro s hs
  obtain ⟨hresult, hstate⟩ := h s hs
  cases result with
  | error e =>
    rw [run_bind_of_error hresult]
    exact ⟨rfl, hstate⟩
  | ok a =>
    rw [run_bind_of_ok hresult]
    exact hnext a _ hstate

theorem Gives.liftEval (x : Except EvalError α) :
    Gives known (liftEval x : Job σ α) (liftEval x) := by
  cases x with
  | ok a => exact .pure a
  | error e => exact .throw (.eval e)

theorem Gives.mapM {f : α → Job σ β} {results : α → Except Error β}
    (h : ∀ a, Gives known (f a) (results a)) (items : List α) :
    Gives known (items.mapM f) (items.mapM results) := by
  induction items with
  | nil =>
    rw [List.mapM_nil, List.mapM_nil]
    exact .pure []
  | cons item items ih =>
    rw [List.mapM_cons, List.mapM_cons]
    exact (h item).bind fun b => ih.bind fun bs => .pure (b :: bs)

end Job

open Job

namespace Expr

variable {σ : Type} {known : σ → Prop} {scope : Scope (Job σ)} {answers : Scope (Except Error)}

theorem hasTag_gives (htags : Gives known scope.tags answers.tags) (target tag : Value) :
    Gives known (hasTag scope target tag) (hasTag answers target tag) := by
  unfold hasTag
  split
  · exact htags.bind fun _ => .pure _
  · exact .liftEval _
  · exact .liftEval _

theorem applyMethod_gives (htags : Gives known scope.tags answers.tags) (name : String)
    (target : Value) (args : List Value) :
    Gives known (applyMethod scope name target args) (applyMethod answers name target args) := by
  unfold applyMethod
  split
  case h_1 => split <;> exact .liftEval _
  case h_2 => exact .liftEval _
  case h_3 => split <;> exact .liftEval _
  case h_4 =>
    split
    · exact .pure _
    · exact .liftEval _
  case h_5 =>
    split
    · exact hasTag_gives htags _ _
    · exact .liftEval _
  case h_6 => exact .liftEval _

/-- An expression has the value that it has among the answers of a scope that always gives them. -/
theorem evaluate_gives
    (hproperty : ∀ path, Gives known (scope.property path) (answers.property path))
    (htags : Gives known scope.tags answers.tags) (e : Expr) :
    Gives known (e.evaluate scope) (e.evaluate answers) := by
  induction e with
  | literal value => exact .pure value
  | attr path => exact hproperty path
  | call receiver name args =>
    have harg (arg : Arg) : Gives known (Arg.evaluate scope arg) (Arg.evaluate answers arg) := by
      cases arg with
      | literal value => exact .pure value
      | attr path => exact hproperty path
    exact (hproperty receiver).bind fun target => (Gives.mapM harg args).bind fun values =>
      (applyMethod_gives htags name target values).bind fun result => .pure (Value.bool result)
  | compare op left right ihl ihr =>
    exact ihl.bind fun l => ihr.bind fun r => (Gives.liftEval _).bind fun b => .pure (Value.bool b)
  | arith op left right ihl ihr => exact ihl.bind fun l => ihr.bind fun r => .liftEval _
  | neg inner ih => exact ih.bind fun value => .liftEval _
  | not inner ih => exact ih.bind fun value => .pure _
  | and left right ihl ihr =>
    refine ihl.bind fun value => ?_
    split
    · exact ihr
    · exact .pure value
  | or left right ihl ihr =>
    refine ihl.bind fun value => ?_
    split
    · exact .pure value
    · exact ihr

end Expr

/-! ## Scopes and documents -/

namespace Document.Visit

theorem gives_property (visit : Visit) (path : List String) :
    Gives visit.Known ((visit.doc.scope visit.snapshot).property path)
      (visit.answers.property path) := by
  obtain ⟨result, hresult⟩ := visit.alike_property path
  have hfirst : visit.answers.property path = result := (hresult () visit.read rfl).1
  rw [hfirst]
  exact hresult ()

theorem gives_tags (visit : Visit) :
    Gives visit.Known (visit.doc.scope visit.snapshot).tags visit.answers.tags := by
  obtain ⟨result, hresult⟩ := visit.alike_tags
  have hfirst : visit.answers.tags = result := (hresult () visit.read rfl).1
  rw [hfirst]
  exact hresult ()

/-- The value of an expression for a document is its value among the answers of the document. -/
theorem evaluate_eq (visit : Visit) (e : Expr) : visit.evaluate e = e.evaluate visit.answers :=
  (Expr.evaluate_gives visit.gives_property visit.gives_tags e visit.read rfl).1

end Document.Visit

/-- What an expression is evaluated for: a scope without a state, or a document, which may have been
read before. -/
inductive Subject where
  | stateless (scope : Scope (Except Error))
  | document (visit : Document.Visit)

namespace Subject

/-- The value of an expression. -/
def evaluate : Subject → Expr → Except Error Value
  | .stateless scope, e => e.evaluate scope
  | .document visit, e => visit.evaluate e

/-- Whether the value of an expression counts as true. -/
def check : Subject → Expr → Except Error Bool
  | .stateless scope, e => e.check scope
  | .document visit, e => visit.result fun snapshot doc => e.check (doc.scope snapshot)

/-- What the subject answers, each answer being the first one. -/
def answers : Subject → Scope (Except Error)
  | .stateless scope => scope
  | .document visit => visit.answers

theorem evaluate_eq (subject : Subject) (e : Expr) :
    subject.evaluate e = e.evaluate subject.answers := by
  cases subject with
  | stateless scope => rfl
  | document visit => exact visit.evaluate_eq e

theorem check_eq (subject : Subject) (e : Expr) :
    subject.check e = (subject.evaluate e).map Value.isTruthy := by
  cases subject with
  | stateless scope => rfl
  | document visit =>
    exact congrArg Outcome.result (run_bind_pure _ Value.isTruthy visit.read)

/-! ## Values of operands -/

section Operands

variable (subject : Subject) (e left right : Expr)

theorem evaluate_compare (op : CompareOp) :
    subject.evaluate (.compare op left right) = (do
      let l ← subject.evaluate left
      let r ← subject.evaluate right
      let result ← liftEval (Expr.compareValues op l r)
      pure (.bool result)) := by
  simp only [evaluate_eq]
  rfl

theorem evaluate_arith (op : ArithOp) :
    subject.evaluate (.arith op left right) = (do
      let l ← subject.evaluate left
      let r ← subject.evaluate right
      liftEval (Expr.arithValues op l r)) := by
  simp only [evaluate_eq]
  rfl

theorem evaluate_neg :
    subject.evaluate (.neg e) = (do
      let value ← subject.evaluate e
      liftEval value.neg) := by
  simp only [evaluate_eq]
  rfl

end Operands

end Subject

end CorpusQuery
