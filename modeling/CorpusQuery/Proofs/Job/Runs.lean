import CorpusQuery.Corpus
import CorpusQuery.Expr.Eval

/-!
# Runs of jobs

What each of the basic jobs does to the state and what it reports, and properties that a job has if
all its steps have it: with which errors it can end (`Job.Raises`), and whether it is apart from the
state (`Job.Detached`). `Expr.evaluate_composable` carries such a property from what a scope answers
to the evaluation of whole expressions.
-/

namespace CorpusQuery

/-- The errors with which work on a document can end: an expression has no value, or a property that
was asked for has none. -/
inductive Error.OfDocument : Error → Prop
  | eval (e : EvalError) : OfDocument (.eval e)
  | field (path : String) (reason : FieldError) : OfDocument (.field path reason)
  | outsideRoot (path : String) : OfDocument (.outsideRoot path)

theorem Event.messages_append (first second : List Event) :
    messages (first ++ second) = messages first ++ messages second := List.filterMap_append

namespace Job

variable {σ τ α β : Type}

/-! ## The basic jobs -/

theorem run_throw (e : Error) (s : σ) :
    (throw e : Job σ α).run s = ⟨.error e, [], s⟩ := rfl

theorem run_get (s : σ) : (get : Job σ σ).run s = ⟨.ok s, [], s⟩ := rfl

theorem run_set (t s : σ) : (set t : Job σ PUnit).run s = ⟨.ok ⟨⟩, [], t⟩ := rfl

theorem run_modifyGet (f : σ → α × σ) (s : σ) :
    (modifyGet f : Job σ α).run s = ⟨.ok (f s).1, [], (f s).2⟩ := rfl

theorem run_report (events : List Event) (s : σ) :
    (report events : Job σ Unit).run s = ⟨.ok (), events, s⟩ := rfl

theorem run_attempt (job : Job σ α) (s : σ) :
    job.attempt.run s = ⟨.ok (job.run s).result, (job.run s).events, (job.run s).state⟩ := rfl

theorem run_aside (job : Job τ α) (t : τ) (s : σ) :
    (job.aside t : Job σ (α × τ)).run s =
      ⟨(job.run t).result.map fun a => (a, (job.run t).state), (job.run t).events, s⟩ := rfl

theorem run_listen (job : Job σ α) (s : σ) :
    job.listen.run s =
      ⟨(job.run s).result.map fun a => (a, (job.run s).events), (job.run s).events,
        (job.run s).state⟩ := rfl

theorem run_onPart (get : σ → τ) (set : τ → σ → σ) (job : Job τ α) (s : σ) :
    (job.onPart get set).run s =
      ⟨(job.run (get s)).result, (job.run (get s)).events, set (job.run (get s)).state s⟩ := rfl

/-- If the first job succeeds, the second goes on from where the first one ended. -/
theorem run_bind_of_ok {job : Job σ α} {next : α → Job σ β} {s : σ} {a : α}
    (h : (job.run s).result = .ok a) :
    (job >>= next).run s =
      ⟨((next a).run (job.run s).state).result,
        (job.run s).events ++ ((next a).run (job.run s).state).events,
        ((next a).run (job.run s).state).state⟩ := by
  rw [run_bind]
  rcases hrun : job.run s with ⟨result, events, t⟩
  rw [hrun] at h
  cases h
  rfl

/-- If the first job fails, the second is left out. -/
theorem run_bind_of_error {job : Job σ α} {next : α → Job σ β} {s : σ} {e : Error}
    (h : (job.run s).result = .error e) :
    (job >>= next).run s = ⟨.error e, (job.run s).events, (job.run s).state⟩ := by
  rw [run_bind]
  rcases hrun : job.run s with ⟨result, events, t⟩
  rw [hrun] at h
  cases h
  rfl

theorem run_bind_pure (job : Job σ α) (f : α → β) (s : σ) :
    (job >>= fun a => pure (f a)).run s =
      ⟨(job.run s).result.map f, (job.run s).events, (job.run s).state⟩ := by
  rw [run_bind]
  rcases job.run s with ⟨e | a, events, t⟩
  · rfl
  · simp only [run_pure, List.append_nil]
    rfl

theorem aside_bind_pure (job : Job τ α) (f : α → β) (t : τ) :
    ((job >>= fun a => pure (f a)).aside t : Job σ (β × τ)) =
      job.aside t >>= fun done => pure (f done.1, done.2) := by
  funext s
  change ((job >>= fun a => pure (f a)).aside t).run s =
    (job.aside t >>= fun done => pure (f done.1, done.2)).run s
  rw [run_bind_pure, run_aside, run_aside, run_bind_pure]
  cases (job.run t).result <;> rfl

/-- An attempt never fails, so that what comes after it is always done. -/
theorem run_attempt_bind (job : Job σ α) (next : Except Error α → Job σ β) (s : σ) :
    (job.attempt >>= next).run s =
      ⟨((next (job.run s).result).run (job.run s).state).result,
        (job.run s).events ++ ((next (job.run s).result).run (job.run s).state).events,
        ((next (job.run s).result).run (job.run s).state).state⟩ :=
  run_bind_of_ok (run_attempt job s ▸ rfl)

theorem run_get_bind (next : σ → Job σ β) (s : σ) : (get >>= next).run s = (next s).run s := by
  rw [run_bind, run_get]
  rfl

theorem run_report_bind (events : List Event) (next : Unit → Job σ β) (s : σ) :
    (report events >>= next).run s =
      ⟨((next ()).run s).result, events ++ ((next ()).run s).events, ((next ()).run s).state⟩ := by
  rw [run_bind, run_report]

/-- A sequence of two jobs succeeds if both succeed. -/
theorem result_bind_eq_ok {job : Job σ α} {next : α → Job σ β} {s : σ} {b : β}
    (h : ((job >>= next).run s).result = .ok b) :
    ∃ a, (job.run s).result = .ok a ∧ ((next a).run (job.run s).state).result = .ok b := by
  cases hfirst : (job.run s).result with
  | error e =>
    rw [run_bind_of_error hfirst] at h
    cases h
  | ok a =>
    rw [run_bind_of_ok hfirst] at h
    exact ⟨a, rfl, h⟩

/-! ## Properties of all steps -/

/-- A property that holds of all work on documents made of steps that have it. -/
structure Composable (P : ∀ {α : Type}, Job σ α → Prop) : Prop where
  pure : ∀ {α : Type} (a : α), P (pure a : Job σ α)
  throw : ∀ {α : Type} {e : Error}, e.OfDocument → P (throw e : Job σ α)
  bind : ∀ {α β : Type} {job : Job σ α} {next : α → Job σ β},
    P job → (∀ a, P (next a)) → P (job >>= next)

/-- The same for work that depends on circumstances, such as the disk it is done on: a property of
what a job is under all circumstances. -/
structure UniformlyComposable {ι : Type} (P : ∀ {α : Type}, (ι → Job σ α) → Prop) : Prop where
  pure : ∀ {α : Type} (a : α), P fun _ => (pure a : Job σ α)
  throw : ∀ {α : Type} {e : Error}, e.OfDocument → P fun _ => (throw e : Job σ α)
  bind : ∀ {α β : Type} {job : ι → Job σ α} {next : α → ι → Job σ β},
    P job → (∀ a, P (next a)) → P fun i => job i >>= fun a => next a i

/-- A single job is one under the only circumstances there are. -/
theorem Composable.uniformly {P : ∀ {α : Type}, Job σ α → Prop} (hP : Composable P) :
    UniformlyComposable fun {α : Type} (job : Unit → Job σ α) => P (job ()) where
  pure := hP.pure
  throw := hP.throw
  bind h hnext := hP.bind h hnext

namespace UniformlyComposable

variable {ι : Type} {P : ∀ {α : Type}, (ι → Job σ α) → Prop}

theorem liftEval (hP : UniformlyComposable P) (x : Except EvalError α) :
    P fun _ => (liftEval x : Job σ α) := by
  cases x with
  | ok a => exact hP.pure a
  | error e => exact hP.throw (.eval e)

theorem ofExcept (hP : UniformlyComposable P) {x : Except Error α}
    (hx : ∀ e, x = .error e → e.OfDocument) : P fun _ => (ofExcept x : Job σ α) := by
  cases x with
  | ok a => exact hP.pure a
  | error e => exact hP.throw (hx e rfl)

theorem mapM (hP : UniformlyComposable P) {f : α → ι → Job σ β} {items : List α}
    (hf : ∀ item ∈ items, P (f item)) : P fun i => items.mapM fun item => f item i := by
  induction items with
  | nil =>
    simp only [List.mapM_nil]
    exact hP.pure []
  | cons item items ih =>
    simp only [List.mapM_cons]
    refine hP.bind (hf item List.mem_cons_self) fun b => ?_
    refine hP.bind (ih fun item h => hf item (List.mem_cons_of_mem _ h)) fun bs => ?_
    exact hP.pure _

end UniformlyComposable

/-! ## Errors of jobs -/

/-- A job that ends with no errors but those of the given kind. -/
def Raises (kind : Error → Prop) (job : Job σ α) : Prop :=
  ∀ s e, (job.run s).result = .error e → kind e

/-- A job that gives a result from every state. -/
def Succeeds (job : Job σ α) : Prop := ∀ s, ∃ a, (job.run s).result = .ok a

section Raises

variable {kind : Error → Prop}

/-- A job that ends with no error at all has a result. -/
theorem Raises.succeeds {job : Job σ α} (h : Raises kind job) (hkind : ∀ e, ¬kind e) :
    Succeeds job := by
  intro s
  cases hresult : (job.run s).result with
  | ok a => exact ⟨a, rfl⟩
  | error e => exact absurd (h s e hresult) (hkind e)

theorem Raises.mono {wider : Error → Prop} {job : Job σ α} (h : Raises kind job)
    (hkind : ∀ {e}, kind e → wider e) : Raises wider job := fun s e he => hkind (h s e he)

theorem Raises.pure (a : α) : Raises kind (pure a : Job σ α) := fun _ _ h => nomatch h

theorem Raises.throw {e : Error} (h : kind e) : Raises kind (throw e : Job σ α) := by
  intro s e' he
  cases he
  exact h

theorem Raises.report (events : List Event) : Raises kind (report events : Job σ Unit) :=
  fun _ _ h => nomatch h

theorem Raises.bind {job : Job σ α} {next : α → Job σ β} (h : Raises kind job)
    (hnext : ∀ a, Raises kind (next a)) : Raises kind (job >>= next) := by
  intro s e he
  cases hfirst : (job.run s).result with
  | error e' =>
    rw [run_bind_of_error hfirst] at he
    cases he
    exact h s e hfirst
  | ok a =>
    rw [run_bind_of_ok hfirst] at he
    exact hnext a _ e he

/-- What is done with the outcome of an attempt meets only errors that the attempt can end with. -/
theorem Raises.attempt_bind {attempted : Error → Prop} {job : Job σ α}
    {next : Except Error α → Job σ β} (h : Raises attempted job)
    (hok : ∀ a, Raises kind (next (.ok a)))
    (herror : ∀ e, attempted e → Raises kind (next (.error e))) :
    Raises kind (job.attempt >>= next) := by
  intro s e he
  rw [run_attempt_bind] at he
  cases hresult : (job.run s).result with
  | ok a =>
    rw [hresult] at he
    exact hok a _ e he
  | error e' =>
    rw [hresult] at he
    exact herror e' (h s e' hresult) _ e he

theorem Raises.aside {job : Job τ α} (h : Raises kind job) (t : τ) :
    Raises kind (job.aside t : Job σ (α × τ)) := by
  intro s e he
  rw [run_aside] at he
  cases hresult : (job.run t).result with
  | ok a =>
    rw [hresult] at he
    cases he
  | error e' =>
    rw [hresult] at he
    cases he
    exact h t e hresult

/-- A refusal under a switch ends with its error only if the switch is on. -/
theorem raises_unless {strict : Bool} {e : Error} {job : Job σ α} (h : strict = true → kind e)
    (hjob : Raises kind job) : Raises kind (if strict then throw e else job) := by
  cases strict with
  | true => exact .throw (h rfl)
  | false => exact hjob

/-- Which errors a job ends with is a matter of the single steps. -/
theorem composable_raises (hkind : ∀ {e : Error}, e.OfDocument → kind e) :
    Composable (σ := σ) fun job => Raises kind job where
  pure := .pure
  throw h := .throw (hkind h)
  bind := .bind

end Raises

/-! ## Jobs apart from the state -/

/-- A job that neither reads nor changes the state. -/
def Detached (job : Job σ α) : Prop := ∃ result events, ∀ s, job.run s = ⟨result, events, s⟩

theorem Detached.pure (a : α) : Detached (pure a : Job σ α) := ⟨.ok a, [], fun _ => rfl⟩

theorem Detached.throw (e : Error) : Detached (throw e : Job σ α) := ⟨.error e, [], fun _ => rfl⟩

theorem Detached.report (events : List Event) : Detached (report events : Job σ Unit) :=
  ⟨.ok (), events, fun _ => rfl⟩

/-- What comes after such a job only has to be considered for the result that the job gives. -/
theorem Detached.bind_of_result {job : Job σ α} {next : α → Job σ β} (h : Detached job)
    (hnext : ∀ a, (∀ s, (job.run s).result = .ok a) → Detached (next a)) :
    Detached (job >>= next) := by
  obtain ⟨result, events, hrun⟩ := h
  cases result with
  | error e =>
    refine ⟨.error e, events, fun s => ?_⟩
    rw [run_bind_of_error (by rw [hrun]), hrun]
  | ok a =>
    obtain ⟨result, events', hrun'⟩ := hnext a fun s => by rw [hrun]
    refine ⟨result, events ++ events', fun s => ?_⟩
    rw [run_bind_of_ok (a := a) (by rw [hrun]), hrun, hrun']

theorem Detached.bind {job : Job σ α} {next : α → Job σ β} (h : Detached job)
    (hnext : ∀ a, Detached (next a)) : Detached (job >>= next) :=
  h.bind_of_result fun a _ => hnext a

theorem Detached.attempt {job : Job σ α} (h : Detached job) : Detached job.attempt := by
  obtain ⟨result, events, hrun⟩ := h
  exact ⟨.ok result, events, fun s => by rw [run_attempt, hrun]⟩

theorem composable_detached : Composable (σ := σ) fun job => Detached job where
  pure := .pure
  throw {_ e} _ := .throw e
  bind := .bind

theorem Detached.aside (job : Job τ α) (t : τ) : Detached (job.aside t : Job σ (α × τ)) :=
  ⟨_, _, fun _ => rfl⟩

/-- What such a job gives and reports is the same from every state. -/
theorem Detached.run_eq {job : Job σ α} (h : Detached job) (s t : σ) :
    job.run t = ⟨(job.run s).result, (job.run s).events, t⟩ := by
  obtain ⟨result, events, hrun⟩ := h
  rw [hrun, hrun]

end Job

namespace Expr

open Job

variable {σ ι : Type} {P : ∀ {α : Type}, (ι → Job σ α) → Prop} {scope : ι → Scope (Job σ)}

theorem hasTag_uniform (hP : UniformlyComposable P) (htags : P fun i => (scope i).tags)
    (target tag : Value) : P fun i => hasTag (scope i) target tag := by
  unfold hasTag
  split
  · exact hP.bind htags fun tags => hP.pure _
  · exact hP.liftEval _
  · exact hP.liftEval _

theorem applyMethod_uniform (hP : UniformlyComposable P) (htags : P fun i => (scope i).tags)
    (name : String) (target : Value) (args : List Value) :
    P fun i => applyMethod (scope i) name target args := by
  unfold applyMethod
  split
  · split <;> exact hP.liftEval _
  · exact hP.liftEval _
  · split <;> exact hP.liftEval _
  · split
    · exact hP.pure _
    · exact hP.liftEval _
  · split
    · exact hasTag_uniform hP htags _ _
    · exact hP.liftEval _
  · exact hP.liftEval _

/-- Evaluation has every composable property that the answers of the scope have. -/
theorem evaluate_uniform (hP : UniformlyComposable P)
    (hproperty : ∀ path, P fun i => (scope i).property path) (htags : P fun i => (scope i).tags)
    (e : Expr) : P fun i => e.evaluate (scope i) := by
  induction e with
  | literal value => exact hP.pure value
  | attr path => exact hproperty path
  | call receiver name args =>
    refine hP.bind (hproperty receiver) fun target => ?_
    refine hP.bind (hP.mapM fun arg _ => ?_) fun values => ?_
    · cases arg with
      | literal value => exact hP.pure value
      | attr path => exact hproperty path
    · exact hP.bind (applyMethod_uniform hP htags _ _ _) fun result => hP.pure _
  | compare op left right ihl ihr =>
    exact hP.bind ihl fun l => hP.bind ihr fun r => hP.bind (hP.liftEval _) fun b => hP.pure _
  | arith op left right ihl ihr =>
    exact hP.bind ihl fun l => hP.bind ihr fun r => hP.liftEval _
  | neg inner ih => exact hP.bind ih fun value => hP.liftEval _
  | not inner ih => exact hP.bind ih fun _ => hP.pure _
  | and left right ihl ihr =>
    refine hP.bind ihl fun value => ?_
    split
    · exact ihr
    · exact hP.pure value
  | or left right ihl ihr =>
    refine hP.bind ihl fun value => ?_
    split
    · exact hP.pure value
    · exact ihr

end Expr

end CorpusQuery
