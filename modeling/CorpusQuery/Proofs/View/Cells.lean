import CorpusQuery.Proofs.Document.Reading
import CorpusQuery.View.Cells

/-!
# Cells of rows

The values of a row, one column at a time: `valueOrProblem` is the step for one column. What is in a
cell depends on the document and the column alone (`values_eq`).
-/

namespace CorpusQuery.Definition

open Job Document

variable {σ : Type} {definition : Definition} {snapshot : Snapshot} {doc : Document}

/-! ## One column -/

/-- The value of a column and no problem, or what stands in its place and the problem. -/
def valueOrProblem (definition : Definition) (snapshot : Snapshot) (doc : Document)
    (column : String) : Reading (Value × List String) := do
  match ← (definition.value snapshot doc column).attempt with
  | .ok value => pure (value, [])
  | .error e =>
    if snapshot.corpus.strictFields then throw (.cell column doc.path e)
    else pure (.str "", [missingValue column doc e])

theorem values_cons (definition : Definition) (snapshot : Snapshot) (doc : Document)
    (column : String) (columns : List String) :
    definition.values snapshot doc (column :: columns) =
      (do
        let first ← definition.valueOrProblem snapshot doc column
        let others ← definition.values snapshot doc columns
        pure (first.1 :: others.1, first.2 ++ others.2)) := by
  rw [values, valueOrProblem, bind_assoc]
  refine bind_congr fun result => ?_
  cases result with
  | ok value => rfl
  | error e => cases snapshot.corpus.strictFields <;> rfl

theorem run_valueOrProblem_of_ok {column : String} {content : Option Content} {value : Value}
    (h : ((definition.value snapshot doc column).run content).result = .ok value) :
    (definition.valueOrProblem snapshot doc column).run content =
      ⟨.ok (value, []), ((definition.value snapshot doc column).run content).events,
        ((definition.value snapshot doc column).run content).state⟩ := by
  rw [valueOrProblem, run_attempt_bind, h]
  simp only [run_pure, List.append_nil]

theorem run_valueOrProblem_of_error {column : String} {content : Option Content} {e : Error}
    (h : ((definition.value snapshot doc column).run content).result = .error e) :
    (definition.valueOrProblem snapshot doc column).run content =
      ⟨if snapshot.corpus.strictFields then .error (.cell column doc.path e)
        else .ok (.str "", [missingValue column doc e]),
        ((definition.value snapshot doc column).run content).events,
        ((definition.value snapshot doc column).run content).state⟩ := by
  rw [valueOrProblem, run_attempt_bind, h]
  cases snapshot.corpus.strictFields <;>
    simp only [run_pure, run_throw, List.append_nil, if_true, if_false, Bool.false_eq_true]

theorem settled_value (column : String) :
    Settled snapshot doc (definition.value snapshot doc column) := by
  unfold value
  split
  · split
    · exact evaluate_composable composable_settled settled_content _
    · exact .throw _
  · exact property_composable composable_settled settled_content true _

theorem settled_valueOrProblem (column : String) :
    Settled snapshot doc (definition.valueOrProblem snapshot doc column) := by
  refine (settled_value column).attempt.bind fun result => ?_
  cases result with
  | ok value => exact .pure _
  | error e =>
    dsimp only
    split
    · exact .throw _
    · exact .pure _

/-- The value of a column for a document, and the empty text if there is none. -/
def valueOrEmpty (definition : Definition) (snapshot : Snapshot) (doc : Document)
    (column : String) : Value :=
  match ((definition.value snapshot doc column).run none).result with
  | .ok value => value
  | .error _ => .str ""

theorem valueOrProblem_eq {column : String} {content : Option Content} {value : Value}
    {problems : List String} (hcontent : IsRead snapshot doc content)
    (h : ((definition.valueOrProblem snapshot doc column).run content).result =
      .ok (value, problems)) :
    value = definition.valueOrEmpty snapshot doc column := by
  rw [(settled_valueOrProblem column).result_eq hcontent] at h
  unfold valueOrEmpty
  cases hvalue : ((definition.value snapshot doc column).run none).result with
  | ok v =>
    rw [run_valueOrProblem_of_ok hvalue] at h
    cases h
    rfl
  | error e =>
    rw [run_valueOrProblem_of_error hvalue] at h
    split at h
    · cases h
    · cases h
      rfl

/-! ## Rows -/

/-- The values of a row are those of its columns, one by one. -/
theorem values_eq {columns : List String} {content : Option Content} {values : List Value}
    {problems : List String} (hcontent : IsRead snapshot doc content)
    (h : ((definition.values snapshot doc columns).run content).result = .ok (values, problems)) :
    values = columns.map (definition.valueOrEmpty snapshot doc) := by
  induction columns generalizing content values problems with
  | nil =>
    cases h
    rfl
  | cons column columns ih =>
    rw [values_cons] at h
    obtain ⟨⟨value, missing⟩, hvalue, h⟩ := result_bind_eq_ok h
    obtain ⟨⟨others, missings⟩, hothers, h⟩ := result_bind_eq_ok h
    cases h
    rw [List.map_cons, ← valueOrProblem_eq hcontent hvalue,
      ← ih ((settled_valueOrProblem column).isRead hcontent) hothers]

/-- In a corpus that is strict about fields there is a row only if no value is missing. -/
theorem value_ok_of_values {columns : List String} {content : Option Content}
    {row : List Value × List String} (hstrict : snapshot.corpus.strictFields = true)
    (hcontent : IsRead snapshot doc content)
    (h : ((definition.values snapshot doc columns).run content).result = .ok row) :
    ∀ column ∈ columns, ∃ value,
      ((definition.value snapshot doc column).run none).result = .ok value := by
  induction columns generalizing content row with
  | nil => exact fun column hcolumn => absurd hcolumn List.not_mem_nil
  | cons first columns ih =>
    rw [values_cons] at h
    obtain ⟨value, hvalue, h⟩ := result_bind_eq_ok h
    obtain ⟨others, hothers, -⟩ := result_bind_eq_ok h
    intro column hcolumn
    rcases List.mem_cons.mp hcolumn with rfl | hcolumn
    · rw [(settled_valueOrProblem column).result_eq hcontent] at hvalue
      cases hresult : ((definition.value snapshot doc column).run none).result with
      | ok value => exact ⟨value, rfl⟩
      | error e =>
        rw [run_valueOrProblem_of_error hresult, hstrict] at hvalue
        cases hvalue
    · exact ih ((settled_valueOrProblem first).isRead hcontent) hothers column hcolumn

/-- The values of the row of one document, and what went wrong. -/
def rowValues (definition : Definition) (snapshot : Snapshot) (columns : List String)
    (opened : OpenDocument) : Job σ (List Value × List String) := do
  let (row, _) ← (definition.values snapshot opened.document columns).aside opened.content
  pure row

theorem run_rowValues (definition : Definition) (snapshot : Snapshot) (columns : List String)
    (opened : OpenDocument) (s : σ) :
    (definition.rowValues snapshot columns opened).run s =
      ⟨((definition.values snapshot opened.document columns).run opened.content).result,
        ((definition.values snapshot opened.document columns).run opened.content).events, s⟩ := by
  rw [rowValues, run_bind, run_aside]
  cases ((definition.values snapshot opened.document columns).run opened.content).result with
  | ok row => simp only [Except.map, run_pure, List.append_nil]
  | error e => rfl

theorem rowsOf_cons (definition : Definition) (snapshot : Snapshot) (columns : List String)
    (opened : OpenDocument) (rest : List OpenDocument) :
    (definition.rowsOf snapshot columns (opened :: rest) : Job σ _) =
      (do
        let first ← definition.rowValues snapshot columns opened
        let others ← definition.rowsOf snapshot columns rest
        pure (first.1 :: others.1, first.2 ++ others.2)) := by
  rw [rowsOf, rowValues, bind_assoc]
  rfl

end CorpusQuery.Definition
