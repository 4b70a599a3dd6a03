import CorpusQuery.Error
import CorpusQuery.Message

/-!
# Jobs

A job works on a state, reports events on its way, and ends with a result or an error. What was
reported and changed before an error stays reported and changed. `attempt` turns the error of a job
into a result.
-/

namespace CorpusQuery

/-- What a job leaves behind: its result, the events it reported, in order, and the state. -/
structure Outcome (σ α : Type) where
  result : Except Error α
  events : List Event
  state : σ

/-- Work on a state of type `σ` that yields an `α`. -/
def Job (σ α : Type) : Type := σ → Outcome σ α

namespace Job

variable {σ τ α β : Type}

/-- Does a job from a state. -/
def run (job : Job σ α) (s : σ) : Outcome σ α := job s

/-- The job that does nothing. -/
protected def pure (a : α) : Job σ α := fun s => ⟨.ok a, [], s⟩

/-- One job after another; the second is left out if the first one fails. -/
protected def bind (job : Job σ α) (next : α → Job σ β) : Job σ β := fun s =>
  let first := job s
  match first.result with
  | .error e => ⟨.error e, first.events, first.state⟩
  | .ok a =>
    let second := next a first.state
    ⟨second.result, first.events ++ second.events, second.state⟩

instance : Monad (Job σ) where
  pure := Job.pure
  bind := Job.bind

theorem run_pure (a : α) (s : σ) : (pure a : Job σ α).run s = ⟨.ok a, [], s⟩ := rfl

theorem run_bind (job : Job σ α) (next : α → Job σ β) (s : σ) :
    (job >>= next).run s =
      match job.run s with
      | ⟨.error e, events, t⟩ => ⟨.error e, events, t⟩
      | ⟨.ok a, events, t⟩ =>
        ⟨((next a).run t).result, events ++ ((next a).run t).events, ((next a).run t).state⟩ := by
  change Job.bind job next s = _
  rcases h : job s with ⟨_ | _, _, _⟩ <;> simp [Job.bind, run, h]

instance : LawfulMonad (Job σ) :=
  LawfulMonad.mk' _
    (by
      intro α job
      funext s
      change Job.bind job (Job.pure ∘ id) s = _
      rcases h : job s with ⟨_ | _, _, _⟩ <;> simp [Job.bind, Job.pure, h])
    (by
      intro α β a next
      funext s
      change Job.bind (Job.pure a) next s = _
      simp [Job.bind, Job.pure])
    (by
      intro α β γ job next last
      funext s
      change Job.bind (Job.bind job next) last s = Job.bind job (fun a => Job.bind (next a) last) s
      simp only [Job.bind]
      rcases job s with ⟨_ | a, _, t⟩
      · rfl
      · simp only
        rcases next a t with ⟨_ | _, _, _⟩ <;> simp)

/-- The job that fails. -/
def fail (e : Error) : Job σ α := fun s => ⟨.error e, [], s⟩

/-- The job with another one in its place from where it failed. -/
def recover (job : Job σ α) (handle : Error → Job σ α) : Job σ α := fun s =>
  let first := job s
  match first.result with
  | .ok a => ⟨.ok a, first.events, first.state⟩
  | .error e =>
    let second := handle e first.state
    ⟨second.result, first.events ++ second.events, second.state⟩

instance : MonadExceptOf Error (Job σ) where
  throw := fail
  tryCatch := recover

instance : MonadStateOf σ (Job σ) where
  get := fun s => ⟨.ok s, [], s⟩
  set s := fun _ => ⟨.ok (), [], s⟩
  modifyGet f := fun s =>
    let (a, s) := f s
    ⟨.ok a, [], s⟩

/-- Reports events. -/
def report (events : List Event) : Job σ Unit := fun s => ⟨.ok (), events, s⟩

/-- Writes a line to the log. -/
def log (level : LogLevel) (text : String) : Job σ Unit := report [.log level text]

/-- The result or the error of a job, as a result. -/
def attempt (job : Job σ α) : Job σ (Except Error α) := fun s =>
  let done := job s
  ⟨.ok done.result, done.events, done.state⟩

/-- The result of a job together with the events it reported. -/
def listen (job : Job σ α) : Job σ (α × List Event) := fun s =>
  let done := job s
  ⟨done.result.map fun a => (a, done.events), done.events, done.state⟩

/-- A computation without effects as a job. -/
def ofExcept : Except Error α → Job σ α
  | .ok a => pure a
  | .error e => fail e

/-- Does a job on a state of its own, beside the state at hand, and gives what became of the former
with the result. -/
def aside (job : Job τ α) (t : τ) : Job σ (α × τ) := fun s =>
  let done := job t
  ⟨done.result.map fun a => (a, done.state), done.events, s⟩

/-- A job on a part of the state. -/
def onPart (get : σ → τ) (set : τ → σ → σ) (job : Job τ α) : Job σ α := fun s =>
  let done := job (get s)
  ⟨done.result, done.events, set done.state s⟩

end Job

end CorpusQuery
