import CorpusQuery.Proofs.View.Messages

/-!
# Events about cells

While a view is computed, values that are missing are spoken of once, when all of them are known.
Reading documents, checking and sorting them, and even computing their cells, say nothing about
missing values, in messages or in the log.
-/

namespace CorpusQuery

open Job Document Event

namespace Event

/-- What a message or a line of the log says. -/
def text : Event → String
  | .message m => m.text
  | .log _ text => text

/-- An event about cells: the notice about values that are missing, or a line about one of them. -/
def isOfCells (event : Event) : Bool :=
  event.text == "problems during base rendering" ||
    decide ("could not find value".toList <+: event.text.toList)

theorem filter_events_eq_nil {m : Message} (h : isOfCells (.message m) = false) (useLog : Bool) :
    (m.events useLog).filter isOfCells = [] := by
  have hlog : isOfCells (.log m.severity.level m.text) = false := h
  cases useLog <;> simp [Message.events, h, hlog]

end Event

namespace Message

variable {corpus : Corpus} {doc : Document} {filter : Filter} {m : Message}

theorem OfReading.not_isOfCells (h : m.OfReading corpus doc) : isOfCells (.message m) = false := by
  cases h <;> simp [isOfCells, Event.text, Corpus.message, toString, ← String.toList_inj]

theorem OfOrder.not_isOfCells (h : m.OfOrder corpus) : isOfCells (.message m) = false := by
  cases h <;> simp [isOfCells, Event.text, Corpus.message, toString, ← String.toList_inj]

end Message

section

variable {σ : Type} {snapshot : Snapshot} {doc : Document}

theorem avoids_notify {corpus : Corpus} {severity : Severity} {text details : String}
    (h : isOfCells (.message (corpus.message severity text details)) = false) :
    Avoids isOfCells (corpus.notify severity text details : Job σ Unit) :=
  .report (filter_events_eq_nil h true)

theorem filter_resolutions (links : List Resolution) :
    (links.flatMap Resolution.events).filter isOfCells = [] := by
  induction links with
  | nil => rfl
  | cons link links ih =>
    rw [List.flatMap_cons, List.filter_append, ih]
    cases link with
    | missing => decide
    | _ => rfl

theorem filter_extract (snapshot : Snapshot) (doc : Document) :
    (Content.extract snapshot doc).2.filter isOfCells = [] := by
  unfold Content.extract
  split
  · split
    · unfold Content.ofText
      simp only [List.filter_append, filter_resolutions, List.append_nil]
      split
      · rfl
      · rfl
      · exact filter_events_eq_nil (Message.OfReading.properties _).not_isOfCells true
    · exact filter_events_eq_nil (Message.OfReading.unread _).not_isOfCells true
  · rfl

theorem avoids_content : Avoids isOfCells (doc.content snapshot) := by
  intro content
  cases content with
  | some content => rfl
  | none =>
    rw [run_content_none]
    exact filter_extract snapshot doc

theorem avoids_evaluate (e : Expr) : Avoids isOfCells (e.evaluate (doc.scope snapshot)) :=
  evaluate_composable composable_avoids avoids_content e

theorem FieldFilter.avoids_check (leaf : FieldFilter) :
    Avoids isOfCells (leaf.check snapshot doc) := by
  have hnotify (text details : String)
      (h : isOfCells (.message (snapshot.corpus.message .warning text details)) = false) :
      Avoids isOfCells (do
        snapshot.corpus.notify .warning text details
        pure true : Reading Bool) := (avoids_notify h).bind fun _ => .pure true
  unfold FieldFilter.check
  cases leaf.compiled with
  | error e =>
    refine avoids_unless (hnotify _ _ ?_)
    simp [isOfCells, Event.text, Corpus.message, toString, ← String.toList_inj]
  | ok expr =>
    have hcheck : Avoids isOfCells (expr.check (doc.scope snapshot)) :=
      (avoids_evaluate expr).bind fun _ => .pure _
    refine hcheck.attempt.bind fun result => ?_
    cases result with
    | ok passed => exact .pure passed
    | error e =>
      refine avoids_unless (hnotify _ _ ?_)
      simp [isOfCells, Event.text, Corpus.message, toString, ← String.toList_inj]

theorem Filter.avoids_check (filter : Filter) : Avoids isOfCells (filter.check snapshot doc) :=
  Filter.check_induction doc (P := fun check => Avoids isOfCells (check snapshot)) .pure .bind
    FieldFilter.avoids_check filter

end

namespace Definition

variable {σ : Type} {definition : Definition} {snapshot : Snapshot} {doc : Document}

theorem avoids_gather (filter : Filter) (files : List RelPath) :
    Avoids isOfCells (gather snapshot filter files : Job σ _) := by
  induction files with
  | nil => exact .pure _
  | cons file files ih =>
    exact (filter.avoids_check.aside none).bind fun _ => ih.bind fun _ => .pure _

theorem avoids_value (definition : Definition) (column : String) :
    Avoids isOfCells (definition.value snapshot doc column) := by
  unfold Definition.value
  split
  · split
    · exact avoids_evaluate _
    · exact .throw _
  · exact property_composable composable_avoids avoids_content true _

theorem avoids_values (definition : Definition) (columns : List String) :
    Avoids isOfCells (definition.values snapshot doc columns) := by
  induction columns with
  | nil => exact .pure _
  | cons column columns ih =>
    rw [values_cons]
    refine Avoids.bind ?_ fun _ => ih.bind fun _ => .pure _
    refine (avoids_value definition column).attempt.bind fun result => ?_
    cases result with
    | ok value => exact .pure _
    | error e => exact avoids_unless (.pure _)

theorem avoids_sortPlan (corpus : Corpus) (view : View) (layout : Layout)
    (sorts : List SortColumn) : Avoids isOfCells (sortPlan corpus view layout sorts : Job σ _) :=
  sortPlan_induction (P := fun job => Avoids isOfCells job) .pure .bind
    (avoids_notify (Message.OfOrder.unsorted _).not_isOfCells)
    (fun details => avoids_notify (Message.OfOrder.default view.name details).not_isOfCells)
    layout sorts

end Definition

end CorpusQuery
