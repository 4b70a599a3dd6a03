import CorpusQuery.Proofs.View.Interview
import CorpusQuery.Proofs.View.Messages

/-!
# Documents of a view are read once

The computation of a view asks each document whether it passes the filters, and then for its cells,
which is an interview of two questions (`interview_of_gather`). So a call tells of each file in the
corpus at most once that it could not be read or has bad front matter (`readings_materialize`).
-/

namespace CorpusQuery

open Job Document Event

/-! ## Messages about one path -/

/-- A message that the document at a path could not be read or has bad front matter. -/
def Message.isOfReadingAt (path : String) (m : Message) : Bool :=
  m.text == s!"could not read metadata from {path}" || m.text == s!"bad properties for file {path}"

theorem Message.isOfReading_of_at {path : String} {m : Message} (h : m.isOfReadingAt path = true) :
    m.isOfReading = true := by
  simp only [isOfReadingAt, Bool.or_eq_true, beq_iff_eq] at h
  rcases h with h | h <;> simp [isOfReading, Begins, h, toString]

theorem Message.OfReading.path_eq {corpus : Corpus} {doc : Document} {m : Message} {path : String}
    (hkind : m.OfReading corpus doc) (h : m.isOfReadingAt path = true) : doc.path = path := by
  simp only [isOfReadingAt, Bool.or_eq_true, beq_iff_eq] at h
  cases hkind <;> rcases h with h | h <;> simp [Corpus.message, toString, ← String.toList_inj] at h
  all_goals exact String.toList_inj.mp h

/-- How many messages tell that the document at a path could not be read, or the like. -/
def readingsAt (path : String) (events : List Event) : Nat :=
  (complaints (Message.isOfReadingAt path) events).length

theorem readingsAt_append (path : String) (first second : List Event) :
    readingsAt path (first ++ second) = readingsAt path first + readingsAt path second := by
  rw [readingsAt, complaints_append, List.length_append]
  rfl

theorem readingsAt_eq (path : String) (events : List Event) :
    readingsAt path events =
      ((complaints Message.isOfReading events).filter (Message.isOfReadingAt path)).length := by
  rw [readingsAt, complaints, complaints, List.filter_filter]
  congr 1
  refine List.filter_congr fun m _ => ?_
  cases h : m.isOfReadingAt path with
  | false => rfl
  | true => rw [Message.isOfReading_of_at h]; rfl

theorem readingsAt_of_quiet {path : String} {events : List Event}
    (h : complaints Message.isOfReading events = []) : readingsAt path events = 0 := by
  rw [readingsAt_eq, h]
  rfl

theorem readingsAt_of_reports {σ α : Type} {kind : Message → Prop} {job : Job σ α}
    (h : Reports kind job) (hkind : ∀ {m}, kind m → m.isOfReading = false) (path : String) (s : σ) :
    readingsAt path (job.run s).events = 0 :=
  readingsAt_of_quiet (h.quiet hkind s)

theorem readingsAt_bind_le {σ α β : Type} {path : String} {job : Job σ α} {next : α → Job σ β}
    {s : σ} {n k : Nat} (h : readingsAt path (job.run s).events ≤ n)
    (hnext : ∀ a t, readingsAt path ((next a).run t).events ≤ k) :
    readingsAt path ((job >>= next).run s).events ≤ n + k := by
  cases hresult : (job.run s).result with
  | error e =>
    rw [run_bind_of_error hresult]
    exact Nat.le_add_right_of_le h
  | ok a =>
    rw [run_bind_of_ok hresult, readingsAt_append]
    exact Nat.add_le_add h (hnext a _)

/-- How often it can still be told of the document at a path. -/
def allowance (path : String) (doc : Document) (content : Option Content) : Nat :=
  if doc.path = path ∧ content = none then 1 else 0

theorem readingsAt_extract (path : String) (snapshot : Snapshot) (doc : Document) :
    readingsAt path (Content.extract snapshot doc).2 ≤ allowance path doc none := by
  rw [readingsAt, complaints]
  rcases messages_extract snapshot doc with hnone | ⟨m, hone, hkind⟩
  · rw [hnone]
    exact Nat.zero_le _
  · rw [hone]
    by_cases hm : m.isOfReadingAt path = true
    · have hpath := hkind.path_eq hm
      simp [allowance, hm, hpath]
    · simp [hm]

/-- Work that looks once uses up what it tells. -/
theorem Document.LooksOnce.readings_le {corpus : Corpus} {doc : Document} {α : Type}
    {job : Moment → Reading α} (h : LooksOnce corpus doc job) (path : String) (moment : Moment)
    (content : Option Content) :
    readingsAt path ((job moment).run content).events +
        allowance path doc ((job moment).run content).state ≤ allowance path doc content := by
  cases content with
  | some content =>
    obtain ⟨result, events, hquiet, hrun⟩ := h.recalled content
    rw [hrun, readingsAt_of_quiet hquiet]
    simp [allowance]
  | none =>
    by_cases hneeds : needsContent job = true
    · obtain ⟨events, hrun, hcomplaints⟩ := h.read hneeds moment
      have hextract := readingsAt_extract path (moment.snapshot corpus) doc
      rw [hrun, readingsAt_eq, hcomplaints, ← readingsAt_eq]
      simpa [allowance] using hextract
    · obtain ⟨result, events, hquiet, hrun⟩ := h.unread (Bool.eq_false_iff.mpr hneeds)
      rw [hrun, readingsAt_of_quiet hquiet]
      simp

/-! ## Views -/

namespace Definition

variable {σ : Type} {corpus : Corpus}

/-- How often it can still be told of the documents at a path. -/
def allowances (path : String) (documents : List OpenDocument) : Nat :=
  (documents.map fun opened => allowance path opened.document opened.content).sum

theorem allowances_cons (path : String) (opened : OpenDocument) (rest : List OpenDocument) :
    allowances path (opened :: rest) =
      allowance path opened.document opened.content + allowances path rest := by
  simp [allowances]

theorem readings_gather (path : String) (corpus : Corpus) (filter : Filter) (moment : Moment)
    (files : List RelPath) (s : σ) :
    let done := (gather (moment.snapshot corpus) filter files).run s
    readingsAt path done.events + (done.result.toOption.map (allowances path)).getD 0 ≤
      (files.map RelPath.text).count path := by
  intro done
  induction files with
  | nil => exact Nat.le_refl _
  | cons file files ih =>
    dsimp only at ih
    have hlooks : LooksOnce corpus (.ofPath corpus file) fun moment =>
        filter.check (moment.snapshot corpus) (.ofPath corpus file) := .filter filter
    have hcheck := hlooks.readings_le path moment none
    have hcount : ((file :: files).map RelPath.text).count path =
        (files.map RelPath.text).count path + allowance path (.ofPath corpus file) none := by
      rw [List.map_cons, List.count_cons]
      simp [allowance, ofPath]
    have hrun := run_gather_cons (moment.snapshot corpus) filter file files s
    rw [Moment.corpus_snapshot] at hrun
    simp only [done, hcount, hrun]
    rcases hchecked : (filter.check (moment.snapshot corpus) (.ofPath corpus file)).run none with
      ⟨e | passed, events, content⟩
    · rw [hchecked] at hcheck
      dsimp only [Except.toOption, Option.map, Option.getD] at hcheck ⊢
      omega
    · rw [hchecked] at hcheck
      dsimp only at hcheck ⊢
      rw [readingsAt_append]
      cases hrest : ((gather (moment.snapshot corpus) filter files).run s).result with
      | error e =>
        rw [hrest] at ih
        dsimp only [Except.map, Except.toOption, Option.map, Option.getD] at ih ⊢
        omega
      | ok documents =>
        rw [hrest] at ih
        dsimp only [Except.map, Except.toOption, Option.map, Option.getD] at ih ⊢
        cases passed with
        | true =>
          rw [if_pos rfl, allowances_cons]
          dsimp only
          omega
        | false =>
          rw [if_neg Bool.false_ne_true]
          omega

theorem readings_rowsOf (path : String) (definition : Definition) (moment : Moment)
    (columns : List String) (documents : List OpenDocument) (s : σ) :
    readingsAt path ((definition.rowsOf (moment.snapshot corpus) columns documents).run s).events ≤
      allowances path documents := by
  induction documents with
  | nil => exact Nat.zero_le _
  | cons opened rest ih =>
    have hlooks : LooksOnce corpus opened.document fun moment =>
        definition.values (moment.snapshot corpus) opened.document columns :=
      looksOnce_values columns
    have hvalues := hlooks.readings_le path moment opened.content
    rw [run_rowsOf_cons, allowances_cons]
    rcases hvalued : (definition.values (moment.snapshot corpus) opened.document columns).run
      opened.content with ⟨e | row, events, content⟩
    · rw [hvalued] at hvalues
      dsimp only at hvalues ⊢
      omega
    · rw [hvalued] at hvalues
      dsimp only at hvalues ⊢
      rw [readingsAt_append]
      omega

theorem isOfReading_of_order {m : Message} (h : m.OfOrder corpus) : m.isOfReading = false := by
  cases h <;> simp [Message.isOfReading, Message.Begins, Corpus.message, toString]

theorem readings_problemEvents (path : String) (corpus : Corpus) (problems : List String) :
    readingsAt path (problemEvents corpus problems) = 0 := by
  refine readingsAt_of_quiet ?_
  rw [complaints]
  rcases messages_problemEvents corpus problems with hnone | ⟨details, hone⟩
  · rw [hnone]
    rfl
  · rw [hone]
    simp [Message.isOfReading, Message.Begins, Corpus.message]

theorem readings_rows (path : String) (definition : Definition) (view : View) (moment : Moment)
    (s : σ) :
    readingsAt path ((definition.rows (moment.snapshot corpus) view).run s).events ≤
      (moment.index.files.map RelPath.text).count path := by
  have hgather := readings_gather path corpus (definition.filter.both view.filter) moment
    moment.index.files s
  have hsorts (t : σ) : readingsAt path
      ((definition.sortColumns corpus view.name view.sorts).run t).events = 0 :=
    readingsAt_of_reports (reports_sortColumns definition corpus view.name view.sorts)
      isOfReading_of_order path t
  have harrange (sorts : List SortColumn) (values : List (List Value)) (t : σ) :
      readingsAt path ((definition.arrange corpus view sorts values).run t).events = 0 :=
    readingsAt_of_reports (reports_arrange definition corpus view sorts values)
      isOfReading_of_order path t
  rw [rows_eq, Moment.index_snapshot, Moment.corpus_snapshot]
  cases hdocuments : ((gather (moment.snapshot corpus) (definition.filter.both view.filter)
      moment.index.files).run s).result with
  | error e =>
    rw [run_bind_of_error hdocuments]
    exact le_trans (Nat.le_add_right _ _) hgather
  | ok documents =>
    rw [run_bind_of_ok hdocuments, readingsAt_append]
    dsimp only at hgather
    rw [hdocuments] at hgather
    refine le_trans (Nat.add_le_add_left ?_ _) hgather
    -- What is left to tell of the documents is told while their cells are computed.
    refine le_trans (readingsAt_bind_le (hsorts _).le fun sorts t =>
      readingsAt_bind_le (readings_rowsOf path definition moment _ documents t) fun values t =>
        readingsAt_bind_le (readings_problemEvents path corpus values.2).le fun _ t =>
          (harrange sorts values.1 t).le) ?_
    simp [Except.toOption]

/-- A call tells of a file at most as often as the file is listed that it could not be read or has
bad front matter. -/
theorem readings_materialize (path : String) (definition : Definition) (corpus : Corpus)
    (around : Surroundings) (name : String) (force : Bool) (desk : Desk) :
    readingsAt path ((definition.materialize corpus around name force).run desk).events ≤
      match Index.ofDisk around.disk corpus.root with
      | .ok index => (index.files.map RelPath.text).count path
      | .error _ => 0 := by
  rw [readingsAt, complaints]
  rcases messages_materialize definition corpus around name force desk with
    hnone | ⟨view, -, index, hwalk, heq⟩
  · rw [hnone]
    exact Nat.zero_le _
  · rw [heq, hwalk]
    exact readings_rows path definition view ⟨around.disk, index⟩ desk

/-! ## Interviews in a view -/

/-- A document that passes is asked for its cells in the state in which the check left it. -/
theorem run_check_of_mem_gather {snapshot : Snapshot} {filter : Filter} {files : List RelPath}
    {documents : List OpenDocument} {s : σ}
    (h : ((gather snapshot filter files).run s).result = .ok documents) :
    ∀ opened ∈ documents, ∃ events,
      (filter.check snapshot opened.document).run none = ⟨.ok true, events, opened.content⟩ := by
  induction files generalizing documents with
  | nil =>
    cases h
    nofun
  | cons file files ih =>
    rw [run_gather_cons] at h
    rcases hcheck : (filter.check snapshot (.ofPath snapshot.corpus file)).run none with
      ⟨e | passed, events, content⟩
    · rw [hcheck] at h
      cases h
    · rw [hcheck] at h
      dsimp only at h
      cases hrest : ((gather snapshot filter files).run s).result with
      | error e =>
        rw [hrest] at h
        cases h
      | ok rest =>
        rw [hrest] at h
        cases passed with
        | false =>
          cases h
          exact ih hrest
        | true =>
          cases h
          intro opened hopened
          rcases List.mem_cons.mp hopened with rfl | hopened
          · exact ⟨events, hcheck⟩
          · exact ih hrest opened hopened

/-- So what a view asks a document that passes is an interview of two questions, which may be asked
at two moments. -/
theorem interview_of_gather {corpus : Corpus} {gathering computing : Moment} {filter : Filter}
    {files : List RelPath} {documents : List OpenDocument} {s : σ} (definition : Definition)
    (columns : List String)
    (h : ((gather (gathering.snapshot corpus) filter files).run s).result = .ok documents)
    {opened : OpenDocument} (hopened : opened ∈ documents) :
    let checked := (filter.check (gathering.snapshot corpus) opened.document).run none
    let computed :=
      (definition.values (computing.snapshot corpus) opened.document columns).run opened.content
    (interview corpus opened.document
        [(gathering, .filter filter), (computing, .cells definition columns)]).run none =
      ⟨.ok [.ok (.passed true), computed.result.map .cells], checked.events ++ computed.events,
        computed.state⟩ := by
  intro checked computed
  obtain ⟨events, hchecked⟩ := run_check_of_mem_gather h opened hopened
  have hcells : interview corpus opened.document [] = pure [] := rfl
  simp only [run_interview_cons, Question.ask, run_bind_pure, checked, computed, hchecked, hcells,
    run_pure, List.append_nil]
  rfl

end Definition

namespace Document

/-- A document is read at most once, and what it answers is what it has to say at that moment.

A document is asked questions about its properties, expressions, filters, cells, tags, links and
front matter, each at a moment of its own, between which the disk and the index may change as they
like. It is read for the first question that needs its content: everything that is answered,
reported and kept depends on the disk and the index at that moment and at no other. What is kept is
what extraction finds then, and each answer is the one that the question would have got as the first
one at that moment. One message at most tells of trouble with reading.

Which questions need the content does not depend on the moment. A property path needs it if it leads
to the tags, the links or the front matter, an expression, a filter or cells only if such a path or
the tags are asked for.

In a view each document that passes the filter is asked for its cells in the same interview, so that
a view reads it at most once, and no call tells more than once of a file that it cannot be read. -/
theorem content_read_once (corpus : Corpus) (doc : Document) (steps : List (Moment × Question)) :
    let held := (interview corpus doc steps).run none
    (∀ others : List (Moment × Question), others.map Prod.snd = steps.map Prod.snd →
        lookAt corpus doc others = lookAt corpus doc steps →
        (interview corpus doc others).run none = held) ∧
      held.state = (lookAt corpus doc steps).map (fun moment =>
        (Content.extract (moment.snapshot corpus) doc).1) ∧
      (∀ seen, (∀ moment, lookAt corpus doc steps = some moment → seen = moment) →
        held.result = .ok (steps.map fun step =>
          ((step.2.ask (seen.snapshot corpus) doc).run none).result)) ∧
      ((messages held.events).filter Message.isOfReading).length ≤ 1 ∧
      (∀ (question : Question) (moment : Moment),
        (question.needsContent corpus doc = true ↔
          ((question.ask (moment.snapshot corpus) doc).run none).state ≠ none)) ∧
      (∀ shown path,
        ((Question.property shown path).needsContent corpus doc = true ↔ OfContent path)) ∧
      (∀ question : Question, question.AvoidsContent →
        question.needsContent corpus doc = false) ∧
      (Question.tags.needsContent corpus doc = true ∧
        Question.links.needsContent corpus doc = true ∧
        Question.properties.needsContent corpus doc = true) ∧
      (∀ (definition : Definition) (filter : Filter) (files : List RelPath)
        (columns : List String) (gathering computing : Moment) (documents : List OpenDocument)
        (desk : Desk),
        ((Definition.gather (gathering.snapshot corpus) filter files).run desk).result =
          .ok documents →
        ∀ opened ∈ documents,
          let checked := (filter.check (gathering.snapshot corpus) opened.document).run none
          let computed := (definition.values (computing.snapshot corpus) opened.document
            columns).run opened.content
          (interview corpus opened.document
              [(gathering, .filter filter), (computing, .cells definition columns)]).run none =
            ⟨.ok [.ok (.passed true), computed.result.map .cells],
              checked.events ++ computed.events, computed.state⟩) ∧
      ∀ (path : String) (definition : Definition) (around : Surroundings) (name : String)
        (force : Bool) (desk : Desk),
        ((messages ((definition.materialize corpus around name force).run desk).events).filter
            (Message.isOfReadingAt path)).length ≤
          match Index.ofDisk around.disk corpus.root with
          | .ok index => (index.files.map RelPath.text).count path
          | .error _ => 0 := by
  intro held
  have hheld : ∀ seen, (∀ moment, lookAt corpus doc steps = some moment → seen = moment) →
      ∃ events, _ := fun seen hseen => run_interview_none steps hseen
  have hlook : ∀ moment, lookAt corpus doc steps = some moment →
      (lookAt corpus doc steps).getD .blank = moment := by
    intro moment h
    rw [h]
    rfl
  obtain ⟨events, hcomplaints, hrun⟩ := hheld _ hlook
  have hsame := hrun steps rfl rfl
  refine ⟨fun others hquestions hlooks => (hrun others hquestions hlooks).trans hsame.symm,
    congrArg Outcome.state hsame, fun seen hseen => ?_, ?_, fun question moment => ?_,
    fun shown path => Question.needsContent_property_iff, fun question =>
      Question.needsContent_of_avoids, Question.needsContent_content, ?_, ?_⟩
  · obtain ⟨events, -, hrun⟩ := hheld seen hseen
    exact congrArg Outcome.result (hrun steps rfl rfl)
  · have hevents : held.events = events := congrArg Outcome.events hsame
    rw [hevents]
    refine (congrArg List.length hcomplaints).trans_le ?_
    cases lookAt corpus doc steps with
    | none => exact Nat.zero_le _
    | some moment =>
      refine (List.length_filter_le _ _).trans ?_
      rcases messages_extract (moment.snapshot corpus) doc with hnone | ⟨m, hone, -⟩
      · rw [hnone]
        exact Nat.zero_le _
      · rw [hone]
        exact Nat.le_refl _
  · cases hneeds : question.needsContent corpus doc with
    | true =>
      obtain ⟨events, hread, -⟩ := question.looksOnce.read hneeds moment
      rw [hread]
      simp
    | false =>
      obtain ⟨result, events, -, hunread⟩ := question.looksOnce.unread hneeds
      rw [hunread]
      simp
  · intro definition filter files columns gathering computing documents desk h opened hopened
    exact Definition.interview_of_gather definition columns h hopened
  · exact fun path definition around name force desk =>
      Definition.readings_materialize path definition corpus around name force desk

/-- The moment at which the notes are on the disk. -/
def noteMoment : Moment := ⟨Definition.noteDisk, ⟨[["a.md"], ["b.md"]]⟩⟩

/-- Questions to a note: its name, a property, and the property again when the note is gone. -/
def noteQuestions : List (Moment × Question) :=
  [(noteMoment, .property false ["file", "name"]), (noteMoment, .property false ["price"]),
    (.blank, .property false ["price"])]

theorem content_read_once_of_note :
    lookAt Definition.noteCorpus (.ofPath Definition.noteCorpus ["a.md"]) noteQuestions =
        some noteMoment ∧
      ((interview Definition.noteCorpus (.ofPath Definition.noteCorpus ["a.md"])
          noteQuestions).run none).result =
        .ok (noteQuestions.map fun step =>
          ((step.2.ask (noteMoment.snapshot Definition.noteCorpus)
            (.ofPath Definition.noteCorpus ["a.md"])).run none).result) := by
  have hname : ¬OfContent ["file", "name"] := by simp [ofContent_iff]
  have hprice : OfContent ["price"] := .property (by decide)
  have hlook : lookAt Definition.noteCorpus (.ofPath Definition.noteCorpus ["a.md"])
      noteQuestions = some noteMoment := by
    simp [lookAt, noteQuestions, Question.needsContent_property_iff, hname, hprice]
  obtain ⟨-, -, hanswers, -⟩ := content_read_once Definition.noteCorpus
    (.ofPath Definition.noteCorpus ["a.md"]) noteQuestions
  exact ⟨hlook, hanswers noteMoment fun moment h => Option.some.inj (hlook.symm.trans h)⟩

end Document

end CorpusQuery
