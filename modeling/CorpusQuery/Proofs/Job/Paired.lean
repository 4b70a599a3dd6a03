import CorpusQuery.Proofs.Job.Runs

/-!
# Strict and lenient runs

Work in a strict corpus and in a lenient one, compared run by run. A run either meets no trouble,
and then both are the same and neither complains, or the strict one fails, without a complaint, and
the lenient one complains. `Job.Paired` says this of two jobs; it is kept by putting jobs one after
the other, so that it only has to be seen where the corpus is asked how strict it is.
-/

namespace CorpusQuery

/-- The messages among events that `complains` picks out. -/
def Event.complaints (complains : Message → Bool) (events : List Event) : List Message :=
  (messages events).filter complains

namespace Event

variable {complains : Message → Bool}

@[simp] theorem complaints_nil : complaints complains [] = [] := rfl

@[simp] theorem complaints_append (first second : List Event) :
    complaints complains (first ++ second) =
      complaints complains first ++ complaints complains second := by
  simp [complaints, messages_append]

@[simp] theorem complaints_log_cons (level : LogLevel) (text : String) (events : List Event) :
    complaints complains (.log level text :: events) = complaints complains events := rfl

theorem complaints_message_cons (m : Message) (events : List Event) :
    complaints complains (.message m :: events) =
      if complains m then m :: complaints complains events else complaints complains events :=
  List.filter_cons

/-- A message that is reported is a complaint if it counts as one, logged or not. -/
theorem complaints_events (m : Message) (useLog : Bool) :
    complaints complains (m.events useLog) = if complains m then [m] else [] := by
  cases useLog <;> simp [Message.events, complaints_message_cons]

end Event

open Event

/-- How a strict run compares to a lenient one. `told` says of an error and a message that they
speak of the same trouble. -/
inductive Outcome.Paired {σ α : Type} (complains : Message → Bool) (told : Error → Message → Prop)
    (strict lenient : Outcome σ α) : Prop
  | same (eq : strict = lenient) (quiet : complaints complains lenient.events = [])
  | apart (e : Error) (m : Message) (others : List Message) (fails : strict.result = .error e)
      (silent : complaints complains strict.events = [])
      (first : complaints complains lenient.events = m :: others) (speaks : told e m)

/-- What was reported before, in both runs and without a complaint, does not matter. -/
theorem Outcome.Paired.after {σ α : Type} {complains : Message → Bool}
    {told : Error → Message → Prop} {strict lenient : Outcome σ α} {events : List Event}
    (h : Outcome.Paired complains told strict lenient)
    (hevents : complaints complains events = []) :
    Outcome.Paired complains told ⟨strict.result, events ++ strict.events, strict.state⟩
      ⟨lenient.result, events ++ lenient.events, lenient.state⟩ := by
  rcases h with ⟨heq, hquiet⟩ | ⟨e, m, others, hfails, hsilent, hfirst, hm⟩
  · refine .same (by rw [heq]) ?_
    rw [complaints_append, hevents, hquiet]
    rfl
  · refine .apart e m others hfails ?_ ?_ hm
    · rw [complaints_append, hevents, hsilent]
      rfl
    · rw [complaints_append, hevents, hfirst]
      rfl

namespace Job

variable {σ τ α β : Type} {complains : Message → Bool} {told : Error → Message → Prop}

/-- A job that never complains. -/
def Quiet (complains : Message → Bool) (job : Job σ α) : Prop :=
  ∀ s, complaints complains (job.run s).events = []

/-- A strict and a lenient job whose runs compare from every state. -/
def Paired (complains : Message → Bool) (told : Error → Message → Prop)
    (strict lenient : Job σ α) : Prop :=
  ∀ s, Outcome.Paired complains told (strict.run s) (lenient.run s)

/-! ## Quiet jobs -/

theorem Quiet.pure (a : α) : Quiet complains (pure a : Job σ α) := fun _ => rfl

theorem Quiet.throw (e : Error) : Quiet complains (throw e : Job σ α) := fun _ => rfl

theorem Quiet.bind {job : Job σ α} {next : α → Job σ β} (h : Quiet complains job)
    (hnext : ∀ a, Quiet complains (next a)) : Quiet complains (job >>= next) := by
  intro s
  cases hfirst : (job.run s).result with
  | error e =>
    rw [run_bind_of_error hfirst]
    exact h s
  | ok a =>
    rw [run_bind_of_ok hfirst, complaints_append, h s, hnext a]
    rfl

theorem Quiet.report {events : List Event} (h : complaints complains events = []) :
    Quiet complains (report events : Job σ Unit) := fun _ => h

theorem Quiet.log (level : LogLevel) (text : String) :
    Quiet complains (log level text : Job σ Unit) := fun _ => rfl

theorem Quiet.attempt {job : Job σ α} (h : Quiet complains job) :
    Quiet complains job.attempt := h

theorem Quiet.notify {corpus : Corpus} {severity : Severity} {text details : String}
    (h : complains (corpus.message severity text details) = false) :
    Quiet complains (corpus.notify severity text details : Job σ Unit) := by
  refine .report ?_
  rw [complaints_events, h]
  rfl

/-- Being quiet is a matter of the single steps. -/
theorem composable_quiet : Composable (σ := σ) fun job => Quiet complains job where
  pure := .pure
  throw {_ e} _ := .throw e
  bind := .bind

/-! ## Paired jobs -/

/-- Work that does not ask how strict the corpus is. -/
theorem Quiet.paired {job : Job σ α} (h : Quiet complains job) : Paired complains told job job :=
  fun s => .same rfl (h s)

theorem Paired.pure (a : α) : Paired complains told (pure a : Job σ α) (pure a) :=
  (Quiet.pure a).paired

/-- The step where the two part: the strict job refuses what the lenient one first complains
about. -/
theorem Paired.refuse {e : Error} {m : Message} {lenient : Job σ α} (hm : told e m)
    (h : ∀ s, ∃ others, complaints complains (lenient.run s).events = m :: others) :
    Paired complains told (throw e) lenient := by
  intro s
  obtain ⟨others, hothers⟩ := h s
  exact .apart e m others rfl rfl hothers hm

theorem complaints_notify {corpus : Corpus} {severity : Severity} {text details : String}
    (h : complains (corpus.message severity text details) = true) (s : σ) :
    complaints complains ((corpus.notify severity text details : Job σ Unit).run s).events =
      [corpus.message severity text details] := by
  change complaints complains ((corpus.message severity text details).events true) = _
  rw [complaints_events, h]
  rfl

/-- The lenient side of a refusal: a notice, and then going on. -/
theorem complaints_notify_bind {corpus : Corpus} {severity : Severity} {text details : String}
    {next : Unit → Job σ α} (h : complains (corpus.message severity text details) = true) (s : σ) :
    ∃ others, complaints complains ((corpus.notify severity text details >>= next).run s).events =
      corpus.message severity text details :: others := by
  rw [run_bind_of_ok (a := ()) rfl, complaints_append, complaints_notify h]
  exact ⟨_, rfl⟩

theorem Paired.bind {strict lenient : Job σ α} {strictNext lenientNext : α → Job σ β}
    (h : Paired complains told strict lenient)
    (hnext : ∀ a, Paired complains told (strictNext a) (lenientNext a)) :
    Paired complains told (strict >>= strictNext) (lenient >>= lenientNext) := by
  intro s
  rcases h s with ⟨heq, hquiet⟩ | ⟨e, m, others, hfails, hsilent, hfirst, hm⟩
  · cases hresult : (lenient.run s).result with
    | error e =>
      rw [run_bind_of_error hresult, run_bind_of_error (heq ▸ hresult), heq]
      exact .same rfl hquiet
    | ok a =>
      rw [run_bind_of_ok hresult, run_bind_of_ok (heq ▸ hresult), heq]
      exact (hnext a (lenient.run s).state).after hquiet
  · rw [run_bind_of_error hfails]
    cases hresult : (lenient.run s).result with
    | error e' =>
      rw [run_bind_of_error hresult]
      exact .apart e m others rfl hsilent hfirst hm
    | ok a =>
      rw [run_bind_of_ok hresult]
      refine .apart e m
        (others ++ complaints complains ((lenientNext a).run (lenient.run s).state).events)
        rfl hsilent ?_ hm
      rw [complaints_append, hfirst]
      rfl

/-- If the strict job succeeds, the lenient one does the same. -/
theorem Paired.run_eq_of_ok {strict lenient : Job σ α} {s : σ} {a : α}
    (h : Paired complains told strict lenient) (hok : (strict.run s).result = .ok a) :
    strict.run s = lenient.run s := by
  rcases h s with ⟨heq, -⟩ | ⟨e, -, -, hfails, -⟩
  · exact heq
  · rw [hfails] at hok
    cases hok

/-- The strict job succeeds exactly if the lenient one, which never fails, does not complain. -/
theorem Paired.ok_iff_quiet {strict lenient : Job σ α} (h : Paired complains told strict lenient)
    (hlenient : Succeeds lenient) (s : σ) :
    (∃ a, (strict.run s).result = .ok a) ↔
      complaints complains (lenient.run s).events = [] := by
  rcases h s with ⟨heq, hquiet⟩ | ⟨e, m, others, hfails, -, hfirst, -⟩
  · rw [heq]
    exact ⟨fun _ => hquiet, fun _ => hlenient s⟩
  · rw [hfails, hfirst]
    constructor
    · rintro ⟨a, hok⟩
      cases hok
    · intro hnil
      cases hnil

/-- Work on a state of its own is paired if the work itself is. -/
theorem Paired.aside {strict lenient : Job τ α} (h : Paired complains told strict lenient) (t : τ) :
    Paired complains told (strict.aside t : Job σ (α × τ)) (lenient.aside t) := by
  intro s
  rw [run_aside, run_aside]
  rcases h t with ⟨heq, hquiet⟩ | ⟨e, m, others, hfails, hsilent, hfirst, hm⟩
  · rw [heq]
    exact .same rfl hquiet
  · refine .apart e m others ?_ hsilent hfirst hm
    rw [hfails]
    rfl

end Job

end CorpusQuery
