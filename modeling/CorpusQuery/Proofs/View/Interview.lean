import CorpusQuery.Proofs.Document.FileFacts
import CorpusQuery.Proofs.Document.Looking
import CorpusQuery.Proofs.View.Cells

/-!
# Asking one document many things

A document is asked a list of questions, each at a moment of its own (`Document.interview`): the
disk and the index may have changed from one to the next. It is read for the first question that
needs its content. All answers are those that the document would give at that moment, and no other
moment counts (`run_interview_none`).
-/

namespace CorpusQuery

open Job Document Event

/-- What can be asked about a document. -/
inductive Question where
  | property (shown : Bool) (path : List String)
  | expression (e : Expr)
  | filter (filter : Filter)
  | cells (definition : Definition) (columns : List String)
  | tags
  | links
  | properties

/-- What is answered. -/
inductive Answer where
  | value (value : Value)
  | passed (passed : Bool)
  | cells (row : List Value × List String)
  | texts (texts : List String)
  | properties (properties : Dictionary Value)

namespace Question

/-- Asks a document. -/
def ask (snapshot : Snapshot) (doc : Document) : Question → Reading Answer
  | .property shown path => do pure (.value (← doc.property snapshot shown path))
  | .expression e => do pure (.value (← e.evaluate (doc.scope snapshot)))
  | .filter f => do pure (.passed (← f.check snapshot doc))
  | .cells definition columns => do pure (.cells (← definition.values snapshot doc columns))
  | .tags => do pure (.texts (← doc.content snapshot).tags)
  | .links => do pure (.texts (← doc.content snapshot).links)
  | .properties => do pure (.properties (← doc.content snapshot).properties)

/-- A question about nothing in the content of a document. -/
def AvoidsContent : Question → Prop
  | .property _ path => ¬OfContent path
  | .expression e => e.AvoidsContent
  | .filter f => f.AvoidsContent
  | .cells definition columns => ∀ column ∈ columns,
    match Definition.formulaName? column with
    | some name => ∀ formula, definition.formula? name = some formula → formula.expr.AvoidsContent
    | none => ¬OfContent (Text.splitString '.' column)
  | .tags | .links | .properties => False

/-- Whether a document that has not been read is read for a question. -/
def needsContent (corpus : Corpus) (doc : Document) (question : Question) : Bool :=
  Document.needsContent fun moment => question.ask (moment.snapshot corpus) doc

end Question

namespace Definition

variable {corpus : Corpus} {doc : Document} {definition : Definition}

/-! ## Cells -/

theorem looksOnce_values (columns : List String) :
    LooksOnce corpus doc fun moment =>
      definition.values (moment.snapshot corpus) doc columns := by
  induction columns with
  | nil => exact .pure _
  | cons column columns ih =>
    simp only [values_cons]
    refine LooksOnce.bind ?_ fun first => ih.bind fun others => .pure _
    have hvalue : LooksOnce corpus doc fun moment =>
        definition.value (moment.snapshot corpus) doc column := by
      unfold value
      split
      · split
        · exact .evaluate _
        · exact .throw _
      · exact .property true _
    refine hvalue.attempt.bind fun result => ?_
    cases result with
    | ok value => exact .pure _
    | error e => exact .refuse_or corpus.strictFields _ (.pure _)

theorem detached_values {snapshot : Snapshot} {columns : List String}
    (h : (Question.cells definition columns).AvoidsContent) :
    Detached (definition.values snapshot doc columns) := by
  induction columns with
  | nil => exact .pure _
  | cons column columns ih =>
    rw [values_cons]
    have hvalue : Detached (definition.value snapshot doc column) := by
      have hcolumn := h column List.mem_cons_self
      unfold value
      split
      · next name hname =>
        rw [hname] at hcolumn
        split
        · next formula hformula => exact detached_evaluate (hcolumn formula hformula)
        · exact .throw _
      · next hname =>
        rw [hname] at hcolumn
        exact detached_property hcolumn true
    have hfirst : Detached (definition.valueOrProblem snapshot doc column) := by
      refine hvalue.attempt.bind fun result => ?_
      cases result with
      | ok value => exact .pure _
      | error e =>
        dsimp only
        split
        · exact .throw _
        · exact .pure _
    exact hfirst.bind fun first =>
      (ih fun other hother => h other (List.mem_cons_of_mem _ hother)).bind fun others => .pure _

end Definition

namespace Question

variable {corpus : Corpus} {doc : Document}

/-! ## Questions -/

theorem looksOnce (question : Question) :
    LooksOnce corpus doc fun moment => question.ask (moment.snapshot corpus) doc := by
  cases question with
  | property shown path => exact (LooksOnce.property shown path).bind fun _ => .pure _
  | expression e => exact (LooksOnce.evaluate e).bind fun _ => .pure _
  | filter filter => exact (LooksOnce.filter filter).bind fun _ => .pure _
  | cells definition columns =>
    exact (Definition.looksOnce_values columns).bind fun _ => .pure _
  | tags => exact LooksOnce.content.bind fun _ => .pure _
  | links => exact LooksOnce.content.bind fun _ => .pure _
  | properties => exact LooksOnce.content.bind fun _ => .pure _

theorem detached_ask {question : Question} (h : question.AvoidsContent) (snapshot : Snapshot) :
    Detached (question.ask snapshot doc) := by
  cases question with
  | property shown path => exact (detached_property h shown).bind fun _ => .pure _
  | expression e => exact (detached_evaluate h).bind fun _ => .pure _
  | filter filter => exact (detached_filter h).bind fun _ => .pure _
  | cells definition columns => exact (Definition.detached_values h).bind fun _ => .pure _
  | tags => cases h
  | links => cases h
  | properties => cases h

theorem needsContent_of_avoids {question : Question} (h : question.AvoidsContent) :
    question.needsContent corpus doc = false := by
  have hask : Detached (question.ask (Moment.blank.snapshot corpus) doc) := detached_ask h _
  obtain ⟨result, events, hrun⟩ := hask
  rw [needsContent, Document.needsContent, hrun]
  rfl

theorem needsContent_property_iff {shown : Bool} {path : List String} :
    (Question.property shown path).needsContent corpus doc = true ↔ OfContent path := by
  constructor
  · intro hneeds
    by_contra h
    have havoids : (Question.property shown path).AvoidsContent := h
    cases hneeds.symm.trans (needsContent_of_avoids havoids)
  · intro h
    rw [needsContent, Document.needsContent, ask, run_bind_pure]
    exact isSome_property h shown

theorem needsContent_content :
    Question.tags.needsContent corpus doc = true ∧ Question.links.needsContent corpus doc = true ∧
      Question.properties.needsContent corpus doc = true := by
  unfold needsContent Document.needsContent ask
  exact ⟨isSome_content_bind fun _ => .pure _, isSome_content_bind fun _ => .pure _,
    isSome_content_bind fun _ => .pure _⟩

end Question

namespace Document

variable {corpus : Corpus} {doc : Document}

/-! ## Interviews -/

/-- Asks a document one question after the other, whether it could answer or not. -/
def interview (corpus : Corpus) (doc : Document) :
    List (Moment × Question) → Reading (List (Except Error Answer))
  | [] => pure []
  | (moment, question) :: rest => do
    let answer ← (question.ask (moment.snapshot corpus) doc).attempt
    let answers ← interview corpus doc rest
    pure (answer :: answers)

/-- The moment at which a document that has not been read is read. -/
def lookAt (corpus : Corpus) (doc : Document) : List (Moment × Question) → Option Moment
  | [] => none
  | (moment, question) :: rest =>
    if question.needsContent corpus doc then some moment else lookAt corpus doc rest

theorem run_interview_cons (moment : Moment) (question : Question)
    (rest : List (Moment × Question)) (state : Option Content) :
    (interview corpus doc ((moment, question) :: rest)).run state =
      let first := (question.ask (moment.snapshot corpus) doc).run state
      let others := (interview corpus doc rest).run first.state
      ⟨others.result.map (first.result :: ·), first.events ++ others.events, others.state⟩ := by
  rw [interview, run_attempt_bind]
  simp only [run_bind_pure]

/-- The same questions at other moments. -/
theorem others_eq_cons {others rest : List (Moment × Question)} {moment : Moment}
    {question : Question}
    (h : others.map Prod.snd = ((moment, question) :: rest).map Prod.snd) :
    ∃ moment' rest', others = (moment', question) :: rest' ∧
      rest'.map Prod.snd = rest.map Prod.snd := by
  rw [List.map_cons] at h
  obtain ⟨⟨moment', question'⟩, rest', rfl, hquestion, hrests⟩ := List.map_eq_cons_iff.mp h
  cases hquestion
  exact ⟨moment', rest', rfl, hrests⟩

/-- Once the content is known, neither the disk nor the index counts. -/
theorem run_interview_some (corpus : Corpus) (doc : Document) (content : Content)
    (steps : List (Moment × Question)) :
    ∃ events, complaints Message.isOfReading events = [] ∧
      ∀ others : List (Moment × Question), others.map Prod.snd = steps.map Prod.snd →
        (interview corpus doc others).run (some content) =
          ⟨.ok (steps.map fun step =>
              ((step.2.ask (Moment.blank.snapshot corpus) doc).run (some content)).result),
            events, some content⟩ := by
  induction steps with
  | nil =>
    refine ⟨[], rfl, fun others hothers => ?_⟩
    rw [List.map_nil, List.map_eq_nil_iff] at hothers
    rw [hothers]
    rfl
  | cons step rest ih =>
    obtain ⟨moment, question⟩ := step
    obtain ⟨events', hquiet', hrest⟩ := ih
    obtain ⟨result, events, hquiet, hrun⟩ := question.looksOnce.recalled content
    refine ⟨events ++ events', ?_, fun others hothers => ?_⟩
    · rw [complaints_append, hquiet, hquiet']
      rfl
    · obtain ⟨moment', rest', rfl, hrests⟩ := others_eq_cons hothers
      rw [run_interview_cons, hrun]
      dsimp only
      rw [hrest rest' hrests, List.map_cons, hrun]
      rfl

/-- An interview is decided by its questions and by the moment at which the document is read. -/
theorem run_interview_none (steps : List (Moment × Question)) {seen : Moment}
    (hseen : ∀ moment, lookAt corpus doc steps = some moment → seen = moment) :
    ∃ events,
      complaints Message.isOfReading events =
        ((lookAt corpus doc steps).map fun moment =>
          complaints Message.isOfReading (Content.extract (moment.snapshot corpus) doc).2).getD [] ∧
      ∀ others : List (Moment × Question), others.map Prod.snd = steps.map Prod.snd →
        lookAt corpus doc others = lookAt corpus doc steps →
        (interview corpus doc others).run none =
          ⟨.ok (steps.map fun step => ((step.2.ask (seen.snapshot corpus) doc).run none).result),
            events,
            (lookAt corpus doc steps).map fun moment =>
              (Content.extract (moment.snapshot corpus) doc).1⟩ := by
  induction steps with
  | nil =>
    refine ⟨[], rfl, fun others hothers _ => ?_⟩
    rw [List.map_nil, List.map_eq_nil_iff] at hothers
    rw [hothers]
    rfl
  | cons step rest ih =>
    obtain ⟨moment, question⟩ := step
    by_cases hneeds : question.needsContent corpus doc = true
    -- The document is read for this question. What comes after only recalls its content.
    · have hlook : lookAt corpus doc ((moment, question) :: rest) = some moment := by
        rw [lookAt, if_pos hneeds]
      obtain rfl := hseen moment hlook
      obtain ⟨events, hrun, hcomplaints⟩ := question.looksOnce.read hneeds seen
      obtain ⟨events', hquiet', hrest⟩ :=
        run_interview_some corpus doc (Content.extract (seen.snapshot corpus) doc).1 rest
      refine ⟨events ++ events', ?_, fun others hothers hlooks => ?_⟩
      · rw [complaints_append, hcomplaints, hquiet', hlook, List.append_nil]
        rfl
      · obtain ⟨moment', rest', rfl, hrests⟩ := others_eq_cons hothers
        rw [hlook, lookAt, if_pos hneeds] at hlooks
        cases hlooks
        have hanswers : ∀ step ∈ rest,
            ((step.2.ask (Moment.blank.snapshot corpus) doc).run
              (some (Content.extract (seen.snapshot corpus) doc).1)).result =
            ((step.2.ask (seen.snapshot corpus) doc).run none).result :=
          fun step _ => step.2.looksOnce.result_eq seen .blank
        rw [run_interview_cons, hrun]
        dsimp only
        rw [hrest rest' hrests, hlook, List.map_cons, ← List.map_congr_left hanswers, hrun]
        rfl
    · have hlook : ∀ moment rest,
          lookAt corpus doc ((moment, question) :: rest) = lookAt corpus doc rest := by
        intro moment rest
        rw [lookAt, if_neg hneeds]
      rw [hlook] at hseen ⊢
      obtain ⟨events', hcomplaints, hrest⟩ := ih hseen
      obtain ⟨result, events, hquiet, hrun⟩ :=
        question.looksOnce.unread (Bool.eq_false_iff.mpr hneeds)
      refine ⟨events ++ events', ?_, fun others hothers hlooks => ?_⟩
      · rw [complaints_append, hquiet, hcomplaints]
        rfl
      · obtain ⟨moment', rest', rfl, hrests⟩ := others_eq_cons hothers
        rw [hlook] at hlooks
        rw [run_interview_cons, hrun]
        dsimp only
        rw [hrest rest' hrests hlooks, List.map_cons, hrun]
        rfl

end Document

end CorpusQuery
