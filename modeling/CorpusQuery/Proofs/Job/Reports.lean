import CorpusQuery.Proofs.Job.Paired

/-!
# What jobs report

Which messages a job can report is a matter of its single steps (`composable_reports`). A job is
quiet if nothing that it can report is a complaint.
-/

namespace CorpusQuery

open Event

namespace Message

/-- A message whose text begins with the given words. -/
def Begins (m : Message) (opening : String) : Prop := opening.toList <+: m.text.toList

instance (m : Message) (opening : String) : Decidable (m.Begins opening) :=
  inferInstanceAs (Decidable (_ <+: _))

end Message

theorem Event.messages_events (m : Message) (useLog : Bool) : messages (m.events useLog) = [m] := by
  cases useLog <;> rfl

namespace Job

variable {σ τ α β : Type} {kind wider : Message → Prop}

/-- A job that reports no messages but those of the given kind. -/
def Reports (kind : Message → Prop) (job : Job σ α) : Prop :=
  ∀ s, ∀ m ∈ messages (job.run s).events, kind m

theorem Reports.mono {job : Job σ α} (h : Reports kind job) (hkind : ∀ {m}, kind m → wider m) :
    Reports wider job := fun s m hm => hkind (h s m hm)

theorem Reports.pure (a : α) : Reports kind (pure a : Job σ α) := fun _ _ hm => nomatch hm

theorem Reports.throw (e : Error) : Reports kind (throw e : Job σ α) := fun _ _ hm => nomatch hm

theorem Reports.bind {job : Job σ α} {next : α → Job σ β} (h : Reports kind job)
    (hnext : ∀ a, Reports kind (next a)) : Reports kind (job >>= next) := by
  intro s m hm
  cases hfirst : (job.run s).result with
  | error e =>
    rw [run_bind_of_error hfirst] at hm
    exact h s m hm
  | ok a =>
    rw [run_bind_of_ok hfirst, messages_append] at hm
    rcases List.mem_append.mp hm with hm | hm
    · exact h s m hm
    · exact hnext a _ m hm

theorem Reports.report {events : List Event} (h : ∀ m ∈ messages events, kind m) :
    Reports kind (report events : Job σ Unit) := fun _ => h

theorem Reports.notify {corpus : Corpus} {severity : Severity} {text details : String}
    (h : kind (corpus.message severity text details)) :
    Reports kind (corpus.notify severity text details : Job σ Unit) := by
  refine .report fun m hm => ?_
  rw [messages_events, List.mem_singleton] at hm
  exact hm ▸ h

theorem Reports.attempt {job : Job σ α} (h : Reports kind job) : Reports kind job.attempt := h

theorem Reports.aside {job : Job τ α} (h : Reports kind job) (t : τ) :
    Reports kind (job.aside t : Job σ (α × τ)) := fun _ => h t

theorem composable_reports : Composable (σ := σ) fun job => Reports kind job where
  pure := .pure
  throw {_ e} _ := .throw e
  bind := .bind

/-- A refusal under a switch reports nothing. -/
theorem reports_unless {strict : Bool} {e : Error} {job : Job σ α} (h : Reports kind job) :
    Reports kind (if strict then throw e else job) := by
  cases strict with
  | true => exact .throw e
  | false => exact h

theorem Reports.quiet {complains : Message → Bool} {job : Job σ α} (h : Reports kind job)
    (hkind : ∀ {m}, kind m → complains m = false) : Quiet complains job := fun s =>
  List.filter_eq_nil_iff.mpr fun m hm => by rw [hkind (h s m hm)]; exact Bool.false_ne_true

/-! ## Events of a kind -/

variable {marks : Event → Bool} {a : α} {b : β} {marked : List Event}

/-- A job that reports no marked events. -/
def Avoids (marks : Event → Bool) (job : Job σ α) : Prop :=
  ∀ s, (job.run s).events.filter marks = []

/-- A job that gives a certain result, and in the course of it reports certain marked events. -/
def Yields (marks : Event → Bool) (a : α) (marked : List Event) (job : Job σ α) : Prop :=
  ∀ s, (job.run s).result = .ok a ∧ (job.run s).events.filter marks = marked

theorem Avoids.pure (a : α) : Avoids marks (pure a : Job σ α) := fun _ => rfl

theorem Avoids.throw (e : Error) : Avoids marks (throw e : Job σ α) := fun _ => rfl

theorem Avoids.bind {job : Job σ α} {next : α → Job σ β} (h : Avoids marks job)
    (hnext : ∀ a, Avoids marks (next a)) : Avoids marks (job >>= next) := by
  intro s
  cases hfirst : (job.run s).result with
  | error e =>
    rw [run_bind_of_error hfirst]
    exact h s
  | ok a =>
    rw [run_bind_of_ok hfirst, List.filter_append, h s, hnext a]
    rfl

theorem Avoids.report {events : List Event} (h : events.filter marks = []) :
    Avoids marks (report events : Job σ Unit) := fun _ => h

theorem Avoids.attempt {job : Job σ α} (h : Avoids marks job) : Avoids marks job.attempt := h

theorem Avoids.aside {job : Job τ α} (h : Avoids marks job) (t : τ) :
    Avoids marks (job.aside t : Job σ (α × τ)) := fun _ => h t

theorem composable_avoids : Composable (σ := σ) fun job => Avoids marks job where
  pure := .pure
  throw {_ e} _ := .throw e
  bind := .bind

theorem avoids_unless {strict : Bool} {e : Error} {job : Job σ α} (h : Avoids marks job) :
    Avoids marks (if strict then throw e else job) := by
  cases strict with
  | true => exact .throw e
  | false => exact h

theorem Avoids.yields {job : Job σ α} (h : Avoids marks job)
    (hresult : ∀ s, (job.run s).result = .ok a) : Yields marks a [] job :=
  fun s => ⟨hresult s, h s⟩

theorem Yields.pure (a : α) : Yields marks a [] (pure a : Job σ α) := fun _ => ⟨rfl, rfl⟩

theorem Yields.bind_none {job : Job σ α} {next : α → Job σ β} (h : Yields marks a marked job)
    (hnext : Yields marks b [] (next a)) : Yields marks b marked (job >>= next) := by
  intro s
  obtain ⟨hresult, hmarked⟩ := h s
  obtain ⟨hresult', hnone⟩ := hnext (job.run s).state
  rw [run_bind_of_ok hresult, List.filter_append, hmarked, hnone, List.append_nil]
  exact ⟨hresult', rfl⟩

theorem Yields.none_bind {job : Job σ α} {next : α → Job σ β} (h : Yields marks a [] job)
    (hnext : Yields marks b marked (next a)) : Yields marks b marked (job >>= next) := by
  intro s
  obtain ⟨hresult, hnone⟩ := h s
  obtain ⟨hresult', hmarked⟩ := hnext (job.run s).state
  rw [run_bind_of_ok hresult, List.filter_append, hmarked, hnone, List.nil_append]
  exact ⟨hresult', rfl⟩

end Job

end CorpusQuery
