import CorpusQuery.Proofs.Document.Looking
import CorpusQuery.Proofs.View.Messages

/-!
# Broken filters

In a corpus that is not strict about fields each filter has an answer. It is the value of the filter
as a formula over its leaves, where a leaf that does not compile or evaluate is true, and each such
leaf that is asked on the way is reported, once and in its turn (`check_fails_open`). The value of
such a formula grows with the values of its parts, so a broken filter in the place of another one
lets no fewer documents pass.
-/

namespace CorpusQuery

open Job Document Event

/-! ## Leaves -/

/-- A message that a leaf of a filter could not be parsed or applied. -/
def Message.isOfFilter (m : Message) : Bool :=
  m.Begins "could not parse filter" || m.Begins "could not apply filter"

theorem Message.OfReading.not_isOfFilter {corpus : Corpus} {doc : Document} {m : Message}
    (h : m.OfReading corpus doc) : m.isOfFilter = false := by
  cases h <;> simp [isOfFilter, Begins, Corpus.message, toString]

namespace FieldFilter

variable (snapshot : Snapshot) (doc : Document) (content : Option Content)

/-- Asks a leaf about a document, without leniency. -/
def judge (leaf : FieldFilter) : Reading Bool :=
  match leaf.compiled with
  | .error e => throw (.compile e)
  | .ok expr => expr.check (doc.scope snapshot)

/-- What a leaf says of a document with the given content, or why it says nothing. -/
def verdict (leaf : FieldFilter) : Except Error Bool :=
  ((leaf.judge snapshot doc).run content).result

/-- A leaf that does not compile, or does not evaluate for a document with the given content. -/
inductive IsBroken (leaf : FieldFilter) : Prop
  | uncompiled {e : CompileError} (h : Expr.compile leaf.source = .error e)
  | unevaluated {expr : Expr} {e : Error} (h : Expr.compile leaf.source = .ok expr)
    (fails : ((expr.evaluate (doc.scope snapshot)).run content).result = .error e)

/-- The truth value of a leaf for a document; a broken one is true. -/
def truth (leaf : FieldFilter) : Bool :=
  match leaf.verdict snapshot doc content with
  | .ok passed => passed
  | .error _ => true

/-- What a lenient corpus says of a broken leaf. -/
def reproach (leaf : FieldFilter) : String :=
  match leaf.compiled with
  | .error _ => s!"could not parse filter `{leaf.source}`"
  | .ok _ => s!"could not apply filter `{leaf.source}` to {doc.path}"

/-- What is reported of a leaf if it is broken. -/
def complaint? (leaf : FieldFilter) : Option Message :=
  match leaf.verdict snapshot doc content with
  | .ok _ => none
  | .error e => snapshot.corpus.message .warning (leaf.reproach doc) e.message

variable {snapshot doc content}

theorem isBroken_iff (leaf : FieldFilter) :
    leaf.IsBroken snapshot doc content ↔ ∃ e, leaf.verdict snapshot doc content = .error e := by
  rw [verdict, judge, leaf.compiled_eq]
  constructor
  · rintro (h | ⟨h, fails⟩)
    · rw [h]
      exact ⟨_, rfl⟩
    · rw [h]
      exact ⟨_, by dsimp only [Expr.check]; rw [run_bind_pure, fails]; rfl⟩
  · rintro ⟨e, he⟩
    cases h : Expr.compile leaf.source with
    | error problem => exact .uncompiled h
    | ok expr =>
      rw [h] at he
      dsimp only [Expr.check] at he
      rw [run_bind_pure] at he
      cases fails : ((expr.evaluate (doc.scope snapshot)).run content).result with
      | error e' => exact .unevaluated h fails
      | ok value =>
        rw [fails] at he
        cases he

theorem isSome_complaint?_iff (leaf : FieldFilter) :
    (leaf.complaint? snapshot doc content).isSome = true ↔ leaf.IsBroken snapshot doc content := by
  rw [isBroken_iff, complaint?]
  cases leaf.verdict snapshot doc content <;> simp

theorem IsBroken.truth_eq {leaf : FieldFilter} (h : leaf.IsBroken snapshot doc content) :
    leaf.truth snapshot doc content = true := by
  obtain ⟨e, he⟩ := leaf.isBroken_iff.mp h
  rw [truth, he]

theorem isOfFilter_reproach (leaf : FieldFilter) (details : String) :
    (snapshot.corpus.message .warning (leaf.reproach doc) details).isOfFilter = true := by
  unfold reproach
  cases leaf.compiled <;>
    simp [Message.isOfFilter, Message.Begins, Corpus.message, toString]

/-- In a corpus that is not strict about fields a leaf that gives an error is reported, and the
document passes. -/
theorem check_of_lenient (hfields : snapshot.corpus.strictFields = false) (leaf : FieldFilter) :
    leaf.check snapshot doc = (do
      match ← (leaf.judge snapshot doc).attempt with
      | .ok passed => pure passed
      | .error e =>
        snapshot.corpus.notify .warning (leaf.reproach doc) e.message
        pure true) := by
  have hlenient : ¬snapshot.corpus.strictFields = true := ne_true_of_eq_false hfields
  unfold FieldFilter.check judge reproach
  cases leaf.compiled with
  | error e => exact if_neg hlenient
  | ok expr =>
    refine bind_congr fun outcome => ?_
    cases outcome with
    | ok passed => rfl
    | error e => exact if_neg hlenient

end FieldFilter

/-! ## Formulas over leaves -/

namespace Filter

variable (truth : FieldFilter → Bool)

mutual

/-- The value of a filter whose leaves have the given values. -/
def holds : Filter → Bool
  | .trivial => true
  | .field leaf => truth leaf
  | .all children => holdsAll children
  | .any children => holdsAny children
termination_by structural filter => filter

/-- Whether all of some filters are true. -/
def holdsAll : List Filter → Bool
  | [] => true
  | child :: children => holds child && holdsAll children
termination_by structural children => children

/-- Whether one of some filters is true. -/
def holdsAny : List Filter → Bool
  | [] => false
  | child :: children => holds child || holdsAny children
termination_by structural children => children

end

mutual

/-- The leaves that are asked for the value of a filter, from left to right. -/
def visited : Filter → List FieldFilter
  | .trivial => []
  | .field leaf => [leaf]
  | .all children => visitedAll children
  | .any children => visitedAny children
termination_by structural filter => filter

/-- The leaves that are asked whether all of some filters are true. The first one that is false
decides. -/
def visitedAll : List Filter → List FieldFilter
  | [] => []
  | child :: children => visited child ++ if holds truth child then visitedAll children else []
termination_by structural children => children

/-- The leaves that are asked whether one of some filters is true. The first one that is true
decides. -/
def visitedAny : List Filter → List FieldFilter
  | [] => []
  | child :: children => visited child ++ if holds truth child then [] else visitedAny children
termination_by structural children => children

end

@[simp] theorem holds_all (children : List Filter) :
    holds truth (.all children) = children.all (holds truth) := by
  rw [holds]
  induction children with
  | nil => rfl
  | cons child children ih => rw [holdsAll, ih, List.all_cons]

@[simp] theorem holds_any (children : List Filter) :
    holds truth (.any children) = children.any (holds truth) := by
  rw [holds]
  induction children with
  | nil => rfl
  | cons child children ih => rw [holdsAny, ih, List.any_cons]

/-- A place in a filter, at any depth: the filter itself, or a place in one of its children. -/
inductive Place where
  | here
  | all (before : List Filter) (place : Place) (after : List Filter)
  | any (before : List Filter) (place : Place) (after : List Filter)

/-- The filter with the given part at a place. -/
def Place.fill (part : Filter) : Place → Filter
  | .here => part
  | .all before place after => .all (before ++ place.fill part :: after)
  | .any before place after => .any (before ++ place.fill part :: after)

variable {truth}

/-- If a part is true, another one in its place can be true as well, and the whole is no less
true. -/
theorem holds_fill_mono {part other : Filter}
    (h : part.holds truth = true → other.holds truth = true) (place : Place) :
    (place.fill part).holds truth = true → (place.fill other).holds truth = true := by
  induction place with
  | here => exact h
  | all before place after ih =>
    simp only [Place.fill, holds_all, List.all_append, List.all_cons, Bool.and_eq_true]
    exact fun ⟨hbefore, hplace, hafter⟩ => ⟨hbefore, ih hplace, hafter⟩
  | any before place after ih =>
    simp only [Place.fill, holds_any, List.any_append, List.any_cons, Bool.or_eq_true]
    exact Or.imp_right (Or.imp_left ih)

end Filter

/-! ## Work that gives one answer -/

namespace Document

variable (snapshot : Snapshot) (doc : Document) (content : Option Content)

/-- The states in which work can find a document of which `content` was known at first: nothing has
been read since, or the document has been read for the first time. -/
def Since (state : Option Content) : Prop :=
  state = content ∨ content = none ∧ state = some (Content.extract snapshot doc).1

/-- Work on a document that gives an answer and reports the given messages about filters. -/
def Answers (answer : Bool) (told : List Message) (job : Reading Bool) : Prop :=
  ∀ state, Since snapshot doc content state → ∃ events after,
    job.run state = ⟨.ok answer, events, after⟩ ∧ Since snapshot doc content after ∧
      complaints Message.isOfFilter events = told

variable {snapshot doc content}

/-- Work that looks at the content once gives the same whether it has been read since or not. -/
theorem LooksOnce.result_since {corpus : Corpus} {α : Type} {job : Moment → Reading α}
    (h : LooksOnce corpus doc job) (moment : Moment) {state : Option Content}
    (hstate : Since (moment.snapshot corpus) doc content state) :
    ((job moment).run state).result = ((job moment).run content).result ∧
      Since (moment.snapshot corpus) doc content ((job moment).run state).state := by
  cases h with
  | apart result events quiet run_eq =>
    rw [run_eq, run_eq]
    exact ⟨rfl, hstate⟩
  | looks result before after quiet_before quiet_after run_some run_none =>
    rcases hstate with rfl | ⟨rfl, rfl⟩
    · refine ⟨rfl, ?_⟩
      cases state with
      | none => exact .inr ⟨rfl, by rw [run_none]⟩
      | some known => exact .inl (by rw [run_some])
    · rw [run_some, run_none]
      exact ⟨rfl, .inr ⟨rfl, rfl⟩⟩

theorem Answers.pure (answer : Bool) :
    Answers snapshot doc content answer [] (pure answer) :=
  fun state hstate => ⟨[], state, rfl, hstate, rfl⟩

theorem Answers.bind {first answer : Bool} {told more : List Message} {job : Reading Bool}
    {next : Bool → Reading Bool} (h : Answers snapshot doc content first told job)
    (hnext : Answers snapshot doc content answer more (next first)) :
    Answers snapshot doc content answer (told ++ more) (job >>= next) := by
  intro state hstate
  obtain ⟨events, between, hrun, hbetween, htold⟩ := h state hstate
  obtain ⟨others, after, hrun', hafter, hmore⟩ := hnext between hbetween
  refine ⟨events ++ others, after, ?_, hafter, ?_⟩
  · rw [run_bind_of_ok (by rw [hrun]), hrun, hrun']
  · rw [complaints_append, htold, hmore]

end Document

/-! ## Lenient checks -/

section

variable {snapshot : Snapshot} {doc : Document} {content : Option Content}

theorem FieldFilter.looksOnce_judge (corpus : Corpus) (leaf : FieldFilter) :
    LooksOnce corpus doc fun moment => leaf.judge (moment.snapshot corpus) doc := by
  unfold judge
  cases leaf.compiled with
  | error e => exact .throw _
  | ok expr => exact (LooksOnce.evaluate expr).bind fun _ => .pure _

theorem FieldFilter.quiet_judge (leaf : FieldFilter) :
    Quiet Message.isOfFilter (leaf.judge snapshot doc) := by
  have hreports : Reports (Message.OfReading snapshot.corpus doc) (leaf.judge snapshot doc) := by
    unfold judge
    cases leaf.compiled with
    | error e => exact .throw _
    | ok expr => exact (reports_evaluate expr).bind fun _ => .pure _
  exact hreports.quiet fun h => h.not_isOfFilter

variable (doc content) in
theorem FieldFilter.answers_check (hfields : snapshot.corpus.strictFields = false)
    (leaf : FieldFilter) :
    Answers snapshot doc content (leaf.truth snapshot doc content)
      (leaf.complaint? snapshot doc content).toList (leaf.check snapshot doc) := by
  intro state hstate
  obtain ⟨hresult, hafter⟩ := (leaf.looksOnce_judge snapshot.corpus).result_since
    ⟨snapshot.disk, snapshot.index⟩ hstate
  have hverdict : ((leaf.judge snapshot doc).run state).result =
      leaf.verdict snapshot doc content := hresult
  rw [check_of_lenient hfields, run_attempt_bind, hverdict, truth, complaint?]
  cases leaf.verdict snapshot doc content with
  | ok passed =>
    refine ⟨_, _, rfl, hafter, ?_⟩
    rw [complaints_append, leaf.quiet_judge state]
    rfl
  | error e =>
    refine ⟨_, _, rfl, hafter, ?_⟩
    have hreproach : complaints Message.isOfFilter
        ((snapshot.corpus.message .warning (leaf.reproach doc) e.message).events true) =
        [snapshot.corpus.message .warning (leaf.reproach doc) e.message] := by
      rw [complaints_events, isOfFilter_reproach, if_pos rfl]
    rw [complaints_append, leaf.quiet_judge state, List.nil_append]
    exact hreproach

variable (doc content) in
/-- A filter in a lenient corpus answers with its value, and reports the broken leaves that are
asked for it. -/
theorem Filter.answers_check (hfields : snapshot.corpus.strictFields = false) (filter : Filter) :
    Answers snapshot doc content (filter.holds (·.truth snapshot doc content))
      ((filter.visited (·.truth snapshot doc content)).filterMap
        (·.complaint? snapshot doc content)) (filter.check snapshot doc) := by
  refine Filter.check.induct
    (fun filter => Answers snapshot doc content (filter.holds (·.truth snapshot doc content))
      ((filter.visited (·.truth snapshot doc content)).filterMap
        (·.complaint? snapshot doc content)) (filter.check snapshot doc))
    (fun filters => Answers snapshot doc content (holdsAny (·.truth snapshot doc content) filters)
      ((visitedAny (·.truth snapshot doc content) filters).filterMap
        (·.complaint? snapshot doc content)) (checkAny snapshot doc filters))
    (fun filters => Answers snapshot doc content (holdsAll (·.truth snapshot doc content) filters)
      ((visitedAll (·.truth snapshot doc content) filters).filterMap
        (·.complaint? snapshot doc content)) (checkAll snapshot doc filters))
    ?trivial ?field ?all ?any ?anyNil ?anyCons ?allNil ?allCons filter
  case trivial => exact .pure true
  case field =>
    intro leaf
    have hleaf := leaf.answers_check doc content hfields
    rw [holds, visited, check, List.filterMap_cons, List.filterMap_nil]
    cases h : leaf.complaint? snapshot doc content with
    | none => rwa [h] at hleaf
    | some m => rwa [h] at hleaf
  case all => exact fun children ih => ih
  case any => exact fun children ih => ih
  case anyNil => exact .pure false
  case anyCons =>
    intro child children ih ihs
    rw [holdsAny, visitedAny, checkAny, List.filterMap_append]
    refine ih.bind ?_
    cases child.holds (·.truth snapshot doc content) with
    | true => exact .pure true
    | false => exact ihs
  case allNil => exact .pure true
  case allCons =>
    intro child children ih ihs
    rw [holdsAll, visitedAll, checkAll, List.filterMap_append]
    refine ih.bind ?_
    cases child.holds (·.truth snapshot doc content) with
    | true => exact ihs
    | false => exact .pure false

end

/-- In a corpus that is not strict about fields each check has an answer: the value of the filter,
where a broken leaf is true. Each broken leaf that is asked for it is reported, in its turn, and
nothing else is reported about a filter. A broken leaf in the place of any part of a filter lets no
fewer documents pass. -/
theorem Filter.check_fails_open {snapshot : Snapshot}
    (hfields : snapshot.corpus.strictFields = false) (doc : Document) (content : Option Content) :
    (∀ filter : Filter,
      ((filter.check snapshot doc).run content).result =
        .ok (filter.holds (·.truth snapshot doc content)) ∧
      (messages ((filter.check snapshot doc).run content).events).filter Message.isOfFilter =
        (filter.visited (·.truth snapshot doc content)).filterMap
          (·.complaint? snapshot doc content)) ∧
    (∀ leaf : FieldFilter, leaf.IsBroken snapshot doc content →
      leaf.truth snapshot doc content = true) ∧
    (∀ leaf : FieldFilter,
      (leaf.complaint? snapshot doc content).isSome = true ↔ leaf.IsBroken snapshot doc content) ∧
    ∀ (place : Place) (part : Filter) (broken : FieldFilter),
      broken.IsBroken snapshot doc content →
      (((place.fill part).check snapshot doc).run content).result = .ok true →
      (((place.fill (.field broken)).check snapshot doc).run content).result = .ok true := by
  have hcheck (filter : Filter) :
      ((filter.check snapshot doc).run content).result =
        .ok (filter.holds (·.truth snapshot doc content)) ∧
      complaints Message.isOfFilter ((filter.check snapshot doc).run content).events =
        (filter.visited (·.truth snapshot doc content)).filterMap
          (·.complaint? snapshot doc content) := by
    obtain ⟨events, after, hrun, -, htold⟩ :=
      filter.answers_check doc content hfields content (.inl rfl)
    rw [hrun]
    exact ⟨rfl, htold⟩
  refine ⟨hcheck, fun leaf h => h.truth_eq, fun leaf => leaf.isSome_complaint?_iff,
    fun place part broken hbroken hpass => ?_⟩
  rw [(hcheck _).1] at hpass ⊢
  injection hpass with hpass
  have htrue : (Filter.field broken).holds (·.truth snapshot doc content) = true :=
    hbroken.truth_eq
  exact congrArg Except.ok (holds_fill_mono (fun _ => htrue) place hpass)

/-- Three conditions: one that does not compile, one that a note does not meet, and one that cannot
be applied to a note. -/
def Filter.mixed : Filter :=
  .all [.field (.ofSource "price >"), .field (.ofSource "file.ext == \"txt\""),
    .field (.ofSource "file.name > 1")]

/-- The first condition lets the note pass and is reported, the second one decides, and the third
one is not asked. -/
theorem Filter.check_fails_open_of_mixed :
    let snapshot : Snapshot :=
      ⟨{ name := "notes", root := ["notes"], config := {} }, .empty, ⟨[]⟩⟩
    let doc : Document := ⟨"/notes/a.md", "a.md"⟩
    snapshot.corpus.strictFields = false ∧
      ((mixed.check snapshot doc).run none).result = .ok false ∧
      (messages ((mixed.check snapshot doc).run none).events).filter Message.isOfFilter =
        [snapshot.corpus.message .warning "could not parse filter `price >`"
          "could not compile `price >` near byte 7: expected a value but reached end of expression"]
    := by
  intro snapshot doc
  have hfields : snapshot.corpus.strictFields = false := rfl
  obtain ⟨hcheck, -⟩ := Filter.check_fails_open hfields doc none
  obtain ⟨hresult, htold⟩ := hcheck mixed
  refine ⟨rfl, hresult.trans (congrArg Except.ok ?_), htold.trans ?_⟩
  · decide +kernel
  · decide +kernel

end CorpusQuery
