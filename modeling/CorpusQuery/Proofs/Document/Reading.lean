import CorpusQuery.Filter
import CorpusQuery.Proofs.Job.Runs

/-!
# Reading documents

What a document says is found out once. Work on a document gives the same result whether the content
was read before or is read on the way (`Settled`), so that each result can be looked at as if it
were the first one asked for.
-/

namespace CorpusQuery

open Job

/-- What changes around a corpus that is worked on: the disk, and the index in use. -/
structure Moment where
  disk : Disk
  index : Index

/-- The corpus at a moment. -/
def Moment.snapshot (corpus : Corpus) (moment : Moment) : Snapshot :=
  ⟨corpus, moment.disk, moment.index⟩

@[simp] theorem Moment.corpus_snapshot (corpus : Corpus) (moment : Moment) :
    (moment.snapshot corpus).corpus = corpus := rfl

@[simp] theorem Moment.index_snapshot (corpus : Corpus) (moment : Moment) :
    (moment.snapshot corpus).index = moment.index := rfl

namespace Document

variable {snapshot : Snapshot} {doc : Document} {α β : Type}

/-! ## The first look at the content -/

/-- A document that has not been read is read. -/
theorem run_content_none (snapshot : Snapshot) (doc : Document) :
    (doc.content snapshot).run none =
      ⟨.ok (Content.extract snapshot doc).1, (Content.extract snapshot doc).2,
        some (Content.extract snapshot doc).1⟩ := by
  unfold content
  rw [run_bind, run_get]
  simp only [run_bind, run_report, run_set, run_pure, List.nil_append, List.append_nil]

/-- A document that has been read is not read again. -/
theorem run_content_some (snapshot : Snapshot) (doc : Document) (content : Content) :
    (doc.content snapshot).run (some content) = ⟨.ok content, [], some content⟩ := rfl

/-! ## Results that do not depend on what was read before -/

/-- The states in which work on a document can find it: not read, or read. -/
def IsRead (snapshot : Snapshot) (doc : Document) (state : Option Content) : Prop :=
  state = none ∨ state = some (Content.extract snapshot doc).1

/-- Work on a document whose result is the same before and after the document has been read. -/
def Settled (snapshot : Snapshot) (doc : Document) (job : Reading α) : Prop :=
  ∀ state, IsRead snapshot doc state →
    (job.run state).result = (job.run none).result ∧ IsRead snapshot doc (job.run state).state

theorem Settled.result_eq {job : Reading α} (h : Settled snapshot doc job) {state : Option Content}
    (hstate : IsRead snapshot doc state) : (job.run state).result = (job.run none).result :=
  (h state hstate).1

theorem Settled.isRead {job : Reading α} (h : Settled snapshot doc job) {state : Option Content}
    (hstate : IsRead snapshot doc state) : IsRead snapshot doc (job.run state).state :=
  (h state hstate).2

theorem Settled.pure (a : α) : Settled snapshot doc (pure a : Reading α) :=
  fun _ hstate => ⟨rfl, hstate⟩

theorem Settled.throw (e : Error) : Settled snapshot doc (throw e : Reading α) :=
  fun _ hstate => ⟨rfl, hstate⟩

theorem Settled.report (events : List Event) :
    Settled snapshot doc (Job.report events : Reading Unit) :=
  fun _ hstate => ⟨rfl, hstate⟩

/-- A result after another one can be looked at as if nothing had been asked before. -/
theorem Settled.result_bind {job : Reading α} {next : α → Reading β} {a : α}
    {state : Option Content} (h : Settled snapshot doc job)
    (hnext : ∀ a, Settled snapshot doc (next a)) (hstate : IsRead snapshot doc state)
    (ha : (job.run none).result = .ok a) :
    ((job >>= next).run state).result = ((next a).run none).result := by
  rw [run_bind_of_ok ((h.result_eq hstate).trans ha)]
  exact (hnext a).result_eq (h.isRead hstate)

theorem Settled.bind {job : Reading α} {next : α → Reading β} (h : Settled snapshot doc job)
    (hnext : ∀ a, Settled snapshot doc (next a)) : Settled snapshot doc (job >>= next) := by
  intro state hstate
  cases hfirst : (job.run none).result with
  | error e =>
    rw [run_bind_of_error ((h.result_eq hstate).trans hfirst), run_bind_of_error hfirst]
    exact ⟨rfl, h.isRead hstate⟩
  | ok a =>
    refine ⟨?_, ?_⟩
    · rw [h.result_bind hnext hstate hfirst, h.result_bind hnext (.inl rfl) hfirst]
    · rw [run_bind_of_ok ((h.result_eq hstate).trans hfirst)]
      exact (hnext a).isRead (h.isRead hstate)

theorem Settled.attempt {job : Reading α} (h : Settled snapshot doc job) :
    Settled snapshot doc job.attempt :=
  fun _ hstate => ⟨congrArg Except.ok (h.result_eq hstate), h.isRead hstate⟩

/-- Being settled is a matter of the single steps. -/
theorem composable_settled : Composable fun job => Settled snapshot doc job where
  pure := .pure
  throw {_ e} _ := .throw e
  bind := .bind

theorem settled_content : Settled snapshot doc (doc.content snapshot) := by
  intro state hstate
  rcases hstate with rfl | rfl
  · exact ⟨rfl, .inr (by rw [run_content_none])⟩
  · rw [run_content_none, run_content_some]
    exact ⟨rfl, .inr rfl⟩

/-! ## Properties -/

theorem ofDocument_of_cover {target : String} {e : Error}
    (h : (doc.coverPath target).map Value.str = .error e) : e.OfDocument := by
  unfold coverPath at h
  split at h
  · cases h
  · dsimp only at h
    split at h
    · cases h
    · cases h
      exact .outsideRoot _

section Uniform

variable {ι : Type} {P : ∀ {α : Type}, (ι → Reading α) → Prop} (corpus : Corpus)
  (moments : ι → Moment)

/-- A property of a document, as it is at each of some moments, has every composable property that
its content has. -/
theorem property_uniform (hP : UniformlyComposable P)
    (hcontent : P fun i => doc.content ((moments i).snapshot corpus)) (shown : Bool)
    (path : List String) : P fun i => doc.property ((moments i).snapshot corpus) shown path := by
  unfold property
  split
  · split
    · next fact _ =>
      cases fact with
      | tags => exact hP.bind hcontent fun _ => hP.pure _
      | links => exact hP.bind hcontent fun _ => hP.pure _
      | name => exact hP.pure (Value.str (if shown then nameLink corpus doc else doc.name))
      | _ => exact hP.pure _
    · exact hP.throw (.field _ _)
  · exact hP.pure _
  · refine hP.bind hcontent fun content => ?_
    split
    · exact hP.pure _
    · split
      · exact hP.ofExcept fun e => ofDocument_of_cover
      · exact hP.pure _
    · exact hP.pure _
  · exact hP.throw (.field _ _)

/-- So has an expression about the document. -/
theorem evaluate_uniform (hP : UniformlyComposable P)
    (hcontent : P fun i => doc.content ((moments i).snapshot corpus)) (e : Expr) :
    P fun i => e.evaluate (doc.scope ((moments i).snapshot corpus)) :=
  Expr.evaluate_uniform hP (property_uniform corpus moments hP hcontent false)
    (hP.bind hcontent fun _ => hP.pure _) e

end Uniform

theorem property_composable {P : ∀ {α : Type}, Reading α → Prop} (hP : Composable P)
    (hcontent : P (doc.content snapshot)) (shown : Bool) (path : List String) :
    P (doc.property snapshot shown path) :=
  property_uniform snapshot.corpus (fun _ => ⟨snapshot.disk, snapshot.index⟩) hP.uniformly hcontent
    shown path

theorem evaluate_composable {P : ∀ {α : Type}, Reading α → Prop} (hP : Composable P)
    (hcontent : P (doc.content snapshot)) (e : Expr) : P (e.evaluate (doc.scope snapshot)) :=
  evaluate_uniform snapshot.corpus (fun _ => ⟨snapshot.disk, snapshot.index⟩) hP.uniformly hcontent
    e

end Document

end CorpusQuery
