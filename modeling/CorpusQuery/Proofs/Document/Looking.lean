import CorpusQuery.Proofs.Document.Filtering
import CorpusQuery.Proofs.Job.Reports
import Mathlib.Tactic.Choose

/-!
# One look at the content

Work on a document, as the disk and the index change under it, looks at the content of the document
once or not at all (`LooksOnce`). Before the look, and without one, neither the disk nor the index
nor what is known of the content makes a difference. After it only the content counts.
-/

namespace CorpusQuery

open Job Event

/-- A message that a document could not be read or has bad front matter. -/
def Message.isOfReading (m : Message) : Bool :=
  m.Begins "could not read metadata from" || m.Begins "bad properties for file"

/-- The moment at which there is nothing on the disk. -/
def Moment.blank : Moment := ⟨.empty, ⟨[]⟩⟩

namespace Document

variable {corpus : Corpus} {doc : Document} {α β : Type}

/-- Work that looks at the content of a document once, or not at all. It reports nothing about
reading except what comes of the look. -/
inductive LooksOnce (corpus : Corpus) (doc : Document) (job : Moment → Reading α) : Prop
  | apart (result : Except Error α) (events : List Event)
    (quiet : complaints Message.isOfReading events = [])
    (run_eq : ∀ moment state, (job moment).run state = ⟨result, events, state⟩)
  | looks (result : Content → Except Error α) (before : List Event)
    (after : Content → List Event)
    (quiet_before : complaints Message.isOfReading before = [])
    (quiet_after : ∀ content, complaints Message.isOfReading (after content) = [])
    (run_some : ∀ moment content,
      (job moment).run (some content) = ⟨result content, before ++ after content, some content⟩)
    (run_none : ∀ moment, (job moment).run none =
      ⟨result (Content.extract (moment.snapshot corpus) doc).1,
        before ++ (Content.extract (moment.snapshot corpus) doc).2 ++
          after (Content.extract (moment.snapshot corpus) doc).1,
        some (Content.extract (moment.snapshot corpus) doc).1⟩)

/-! ## What follows from one look -/

/-- Whether work on a document that has not been read reads it. -/
def needsContent (job : Moment → Reading α) : Bool := ((job .blank).run none).state.isSome

namespace LooksOnce

variable {job : Moment → Reading α}

/-- Once the content is known it alone counts. -/
theorem recalled (h : LooksOnce corpus doc job) (content : Content) :
    ∃ result events, complaints Message.isOfReading events = [] ∧
      ∀ moment, (job moment).run (some content) = ⟨result, events, some content⟩ := by
  cases h with
  | apart result events quiet run_eq =>
    exact ⟨result, events, quiet, fun moment => run_eq moment (some content)⟩
  | looks result before after quiet_before quiet_after run_some run_none =>
    refine ⟨result content, before ++ after content, ?_, fun moment => run_some moment content⟩
    rw [complaints_append, quiet_before, quiet_after]
    rfl

/-- Work that does not read the document is the same at any moment and whatever is known. -/
theorem unread (h : LooksOnce corpus doc job) (hneeds : needsContent job = false) :
    ∃ result events, complaints Message.isOfReading events = [] ∧
      ∀ moment state, (job moment).run state = ⟨result, events, state⟩ := by
  cases h with
  | apart result events quiet run_eq => exact ⟨result, events, quiet, run_eq⟩
  | looks result before after quiet_before quiet_after run_some run_none =>
    rw [needsContent, run_none] at hneeds
    cases hneeds

/-- Work that reads the document gives what it gives if the content is known already. -/
theorem read (h : LooksOnce corpus doc job) (hneeds : needsContent job = true) (moment : Moment) :
    ∃ events, (job moment).run none =
        ⟨((job moment).run (some (Content.extract (moment.snapshot corpus) doc).1)).result, events,
          some (Content.extract (moment.snapshot corpus) doc).1⟩ ∧
      complaints Message.isOfReading events =
        complaints Message.isOfReading (Content.extract (moment.snapshot corpus) doc).2 := by
  cases h with
  | apart result events quiet run_eq =>
    rw [needsContent, run_eq] at hneeds
    cases hneeds
  | looks result before after quiet_before quiet_after run_some run_none =>
    refine ⟨before ++ (Content.extract (moment.snapshot corpus) doc).2 ++
      after (Content.extract (moment.snapshot corpus) doc).1, ?_, ?_⟩
    · rw [run_some, run_none]
    · simp only [complaints_append, quiet_before, quiet_after, List.nil_append, List.append_nil]

/-- What comes out is the same whether the content is found out now or was found out before. -/
theorem result_eq (h : LooksOnce corpus doc job) (seen moment : Moment) :
    ((job moment).run (some (Content.extract (seen.snapshot corpus) doc).1)).result =
      ((job seen).run none).result := by
  cases h with
  | apart result events quiet run_eq => rw [run_eq, run_eq]
  | looks result before after quiet_before quiet_after run_some run_none =>
    rw [run_some, run_none]

/-! ## Steps -/

theorem pure (a : α) : LooksOnce corpus doc fun _ => (pure a : Reading α) :=
  .apart (.ok a) [] rfl fun _ _ => rfl

theorem throw (e : Error) : LooksOnce corpus doc fun _ => (throw e : Reading α) :=
  .apart (.error e) [] rfl fun _ _ => rfl

theorem report {events : List Event} (h : complaints Message.isOfReading events = []) :
    LooksOnce corpus doc fun _ => (Job.report events : Reading Unit) :=
  .apart (.ok ()) events h fun _ _ => rfl

theorem content : LooksOnce corpus doc fun moment => doc.content (moment.snapshot corpus) := by
  refine .looks .ok [] (fun _ => []) rfl (fun _ => rfl) (fun _ _ => rfl) fun moment => ?_
  rw [run_content_none, List.nil_append, List.append_nil]

theorem attempt (h : LooksOnce corpus doc job) :
    LooksOnce corpus doc fun moment => (job moment).attempt := by
  cases h with
  | apart result events quiet run_eq =>
    refine .apart (.ok result) events quiet fun moment state => ?_
    rw [run_attempt, run_eq]
  | looks result before after quiet_before quiet_after run_some run_none =>
    refine .looks (fun content => .ok (result content)) before after quiet_before quiet_after
      (fun moment content => ?_) fun moment => ?_
    · rw [run_attempt, run_some]
    · rw [run_attempt, run_none]

/-- After something that does not look there may be one look. -/
theorem after_apart {next : α → Moment → Reading β} {events : List Event} {a : α}
    (quiet : complaints Message.isOfReading events = [])
    (run_eq : ∀ moment state, (job moment).run state = ⟨.ok a, events, state⟩)
    (hnext : LooksOnce corpus doc (next a)) :
    LooksOnce corpus doc fun moment => job moment >>= fun a => next a moment := by
  have hrun : ∀ moment state, (job moment >>= fun a => next a moment).run state =
      ⟨((next a moment).run state).result, events ++ ((next a moment).run state).events,
        ((next a moment).run state).state⟩ := by
    intro moment state
    rw [run_bind, run_eq]
  cases hnext with
  | apart result events' quiet' run_eq' =>
    refine .apart result (events ++ events') ?_ fun moment state => ?_
    · rw [complaints_append, quiet, quiet']
      rfl
    · rw [hrun, run_eq']
  | looks result before after quiet_before quiet_after run_some run_none =>
    refine .looks result (events ++ before) after ?_ quiet_after (fun moment content => ?_)
      fun moment => ?_
    · rw [complaints_append, quiet, quiet_before]
      rfl
    · rw [hrun, run_some, List.append_assoc]
    · rw [hrun, run_none]
      simp only [List.append_assoc]

theorem bind {next : α → Moment → Reading β} (h : LooksOnce corpus doc job)
    (hnext : ∀ a, LooksOnce corpus doc (next a)) :
    LooksOnce corpus doc fun moment => job moment >>= fun a => next a moment := by
  cases h with
  | apart result events quiet run_eq =>
    cases result with
    | error e =>
      refine .apart (.error e) events quiet fun moment state => ?_
      rw [run_bind, run_eq]
    | ok a => exact after_apart quiet run_eq (hnext a)
  -- The look is over when the second job begins, so that job only recalls.
  | looks result before after quiet_before quiet_after run_some run_none =>
    choose result' events' quiet' run' using fun a content => (hnext a).recalled content
    refine .looks (fun content => result content >>= fun a => result' a content) before
      (fun content =>
        after content ++ (result content).toOption.elim [] fun a => events' a content)
      quiet_before (fun content => ?_) (fun moment content => ?_) fun moment => ?_
    · rw [complaints_append, quiet_after]
      cases result content with
      | error e => rfl
      | ok a => exact quiet' a content
    · rw [run_bind, run_some]
      cases result content with
      | error e =>
        dsimp only [Except.toOption, Option.elim_none]
        rw [List.append_nil]
        rfl
      | ok a =>
        dsimp only [Except.toOption, Option.elim_some]
        rw [run', List.append_assoc]
        rfl
    · rw [run_bind, run_none]
      cases result (Content.extract (moment.snapshot corpus) doc).1 with
      | error e =>
        dsimp only [Except.toOption, Option.elim_none]
        rw [List.append_nil]
        rfl
      | ok a =>
        dsimp only [Except.toOption, Option.elim_some]
        rw [run']
        simp only [List.append_assoc]
        rfl

theorem uniformlyComposable :
    UniformlyComposable fun {α : Type} (job : Moment → Reading α) => LooksOnce corpus doc job where
  pure := .pure
  throw {_ e} _ := .throw e
  bind := .bind

/-! ## Properties, expressions and filters -/

theorem property (shown : Bool) (path : List String) :
    LooksOnce corpus doc fun moment => doc.property (moment.snapshot corpus) shown path :=
  property_uniform corpus id uniformlyComposable content shown path

theorem evaluate (e : Expr) :
    LooksOnce corpus doc fun moment => e.evaluate (doc.scope (moment.snapshot corpus)) :=
  evaluate_uniform corpus id uniformlyComposable content e

/-- What a corpus refuses or deals with in another way. -/
theorem refuse_or (strict : Bool) (e : Error) (h : LooksOnce corpus doc job) :
    LooksOnce corpus doc fun moment => if strict then MonadExcept.throw e else job moment := by
  cases strict with
  | true => exact throw e
  | false => exact h

theorem refuse_or_notify (strict : Bool) (e : Error) {severity : Severity} {text details : String}
    (a : α) (h : (corpus.message severity text details).isOfReading = false) :
    LooksOnce corpus doc fun _ =>
      (if strict then MonadExcept.throw e else do
        corpus.notify severity text details
        Pure.pure a : Reading α) := by
  have hquiet : complaints Message.isOfReading
      ((corpus.message severity text details).events true) = [] := by
    rw [complaints_events, h]
    rfl
  exact refuse_or strict e ((report hquiet).bind fun _ => pure a)

theorem isOfReading_of_filter (source details : String) :
    (corpus.message .warning s!"could not parse filter `{source}`" details).isOfReading =
      false := by
  simp [Message.isOfReading, Message.Begins, Corpus.message, toString]

theorem isOfReading_of_application (source path details : String) :
    (corpus.message .warning s!"could not apply filter `{source}` to {path}" details).isOfReading =
      false := by
  simp [Message.isOfReading, Message.Begins, Corpus.message, toString]

theorem field (filter : FieldFilter) :
    LooksOnce corpus doc fun moment => filter.check (moment.snapshot corpus) doc := by
  unfold FieldFilter.check
  simp only [Moment.corpus_snapshot]
  cases filter.compiled with
  | error e => exact refuse_or_notify _ _ true (isOfReading_of_filter filter.source e.message)
  | ok expr =>
    have hcheck : LooksOnce corpus doc fun moment =>
        expr.check (doc.scope (moment.snapshot corpus)) :=
      (evaluate expr).bind fun _ => pure _
    refine hcheck.attempt.bind fun result => ?_
    cases result with
    | ok passed => exact pure passed
    | error e =>
      exact refuse_or_notify _ _ true (isOfReading_of_application filter.source doc.path e.message)

theorem filter (filter : Filter) :
    LooksOnce corpus doc fun moment => filter.check (moment.snapshot corpus) doc :=
  Filter.check_induction doc
    (P := fun check => LooksOnce corpus doc fun moment => check (moment.snapshot corpus)) .pure
    .bind field filter

end LooksOnce

end Document

end CorpusQuery
