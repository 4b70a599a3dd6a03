import CorpusQuery.Proofs.Text.Pieces
import CorpusQuery.Proofs.View.Refusals

/-!
# Columns to sort by

A view is sorted by what `Definition.isColumn` takes for a column, and shows what `Definition.value`
computes. The one takes a property apart at its dots, the other looks for the name of a formula
behind `formula.`, whatever that name is. The two agree on all properties but the formulas with a
dot in their names: these are shown, and a view cannot be sorted by them
(`isColumn_iff_computable`, `isColumn_dotted_formula`).
-/

namespace CorpusQuery

open Job

/-! ## Dots -/

namespace Text

theorem splitString_append {word : String} (h : '.' ∉ word.toList) (s : String) :
    splitString '.' (word ++ "." ++ s) = word :: splitString '.' s := by
  have htext : (word ++ "." ++ s).toList = word.toList ++ '.' :: s.toList := by
    simp only [String.toList_append, List.append_assoc]
    rfl
  rw [splitString, htext, splitOn_append_cons h, List.map_cons, String.ofList_toList, splitString]

/-- A text is one piece if there is no dot in it. -/
theorem splitString_of_not_mem {s : String} (h : '.' ∉ s.toList) : splitString '.' s = [s] := by
  rw [splitString, splitOn_eq, List.splitOn_eq_singleton h, List.map_singleton,
    String.ofList_toList]

/-- A text is several pieces if there is a dot in it. -/
theorem splitString_of_mem {s : String} (h : '.' ∈ s.toList) :
    ∃ first second rest, splitString '.' s = first :: second :: rest := by
  obtain ⟨before, after, hs, hbefore⟩ := List.eq_append_cons_of_mem h
  obtain ⟨second, rest, hafter⟩ :=
    List.exists_cons_of_ne_nil (List.splitOn_ne_nil '.' after)
  rw [← splitOn_eq] at hafter
  refine ⟨String.ofList before, String.ofList second, rest.map String.ofList, ?_⟩
  rw [splitString, hs, splitOn_append_cons hbefore, hafter, List.map_cons, List.map_cons]

end Text

/-! ## Rejected columns -/

/-- What rejects a column itself: there is no such formula, no such fact about a file, or no
property at such a path. -/
inductive Error.RejectsColumn (column : String) : Error → Prop
  | formula : RejectsColumn column (.field column .unknownFormula)
  | file : RejectsColumn column (.field column .unknownFileProperty)
  | path : RejectsColumn column (.field column .unsupportedPath)

namespace Definition

variable {definition : Definition} {snapshot : Snapshot} {doc : Document}

/-- Whether no document rejects a column. -/
def Computable (definition : Definition) (column : String) : Prop :=
  ∀ snapshot doc, Raises (fun e => ¬e.RejectsColumn column) (definition.value snapshot doc column)

/-- Whether every document rejects a column. -/
def Rejected (definition : Definition) (column : String) : Prop :=
  ∃ e : Error, e.RejectsColumn column ∧
    ∀ snapshot doc, definition.value snapshot doc column = throw e

/-! ## Formulas -/

theorem formulaName?_eq_some_iff {column name : String} :
    formulaName? column = some name ↔ column = "formula." ++ name := by
  rw [formulaName?, Option.map_eq_some_iff]
  simp only [Text.after?_eq_some_iff]
  constructor
  · rintro ⟨rest, hcolumn, rfl⟩
    rw [← String.toList_inj, String.toList_append, String.toList_ofList (l := rest), hcolumn]
  · rintro rfl
    exact ⟨name.toList, String.toList_append, String.ofList_toList⟩

theorem splitString_formula (name : String) :
    Text.splitString '.' ("formula." ++ name) = "formula" :: Text.splitString '.' name := by
  have hword : '.' ∉ "formula".toList := by decide
  exact Text.splitString_append hword name

/-- A formula is a column to sort by if there is no dot in its name. -/
theorem isColumn_formula_iff (definition : Definition) (name : String) :
    definition.isColumn ("formula." ++ name) = true ↔
      '.' ∉ name.toList ∧ (definition.formula? name).isSome = true := by
  rw [isColumn, splitString_formula]
  by_cases hdot : '.' ∈ name.toList
  · obtain ⟨first, second, rest, hname⟩ := Text.splitString_of_mem hdot
    rw [hname]
    simp [hdot]
  · rw [Text.splitString_of_not_mem hdot]
    simp [hdot]

/-- The value of a formula is what it evaluates to, whatever its name is. -/
theorem value_formula {name : String} {formula : Formula}
    (h : definition.formula? name = some formula) (snapshot : Snapshot) (doc : Document) :
    definition.value snapshot doc ("formula." ++ name) = formula.evaluate snapshot doc := by
  rw [value, formulaName?_eq_some_iff.mpr rfl]
  dsimp only
  rw [h]

/-- Formulas cannot be asked for in expressions. One that asks for itself is rejected like a path
that no document has, whether a view can be sorted by it or not. -/
theorem rejected_of_self_reference {name : String} {formula : Formula}
    (h : definition.formula? name = some formula)
    (hself : formula.expr = .attr ["formula", name]) :
    definition.Rejected ("formula." ++ name) := by
  refine ⟨_, .path, fun snapshot doc => ?_⟩
  rw [value_formula h, Formula.evaluate, hself]
  simp only [Expr.evaluate, Document.scope, Document.property]
  rfl

/-! ## Properties -/

/-- The error about a cover outside of the root, the only one that a property of a document can
have if there is such a property. -/
def IsOutsideRoot (e : Error) : Prop := ∃ path, e = .outsideRoot path

theorem raises_fileField (fact : FileField) :
    Raises IsOutsideRoot (doc.fileField snapshot true fact) := by
  cases fact with
  | tags | links => exact raises_content.bind fun _ => .pure _
  | _ => exact .pure _

theorem raises_frontMatterProperty (name : String) :
    Raises IsOutsideRoot (doc.frontMatterProperty snapshot true name) := by
  refine raises_content.bind fun content => ?_
  split
  · exact .pure _
  · next target _ =>
    split
    · intro s e he
      unfold Document.coverPath at he
      split at he
      · cases he
      · dsimp only at he
        split at he
        · cases he
        · cases he
          exact ⟨_, rfl⟩
    · exact .pure _
  · exact .pure _

/-- A property that is no formula is a column to sort by if it can be computed, and rejected by
every document if not. -/
theorem isColumn_of_no_formula (definition : Definition) {property : String}
    (hproperty : property ≠ "") (hformula : formulaName? property = none) :
    (definition.isColumn property = true ∧
        ∀ snapshot doc, Raises IsOutsideRoot (definition.value snapshot doc property)) ∨
      (definition.isColumn property = false ∧ definition.Rejected property) := by
  have hvalue (snapshot : Snapshot) (doc : Document) :
      definition.value snapshot doc property =
        doc.property snapshot true (Text.splitString '.' property) := by
    rw [value, hformula]
  have htext : String.intercalate "." (Text.splitString '.' property) = property :=
    Text.intercalate_splitString '.' property
  unfold isColumn Rejected
  simp only [hvalue]
  -- the cases are those of the two functions together, by the pieces of the property
  match hpieces : Text.splitString '.' property with
  | [] =>
    rw [hpieces] at htext
    exact absurd htext.symm hproperty
  | [name] =>
    have hname : name = property := by
      rw [hpieces] at htext
      exact htext
    refine .inl ⟨by simp [hname, hproperty], fun snapshot doc => ?_⟩
    unfold Document.property
    split
    · next h => cases h
    · exact .pure _
    · next h =>
      cases h
      exact raises_frontMatterProperty _
    · next h => exact absurd rfl (h name)
  | [first, field] =>
    rw [hpieces] at htext
    have hjoined : first ++ "." ++ field = property := htext
    by_cases hfirst : first = "formula"
    · subst hfirst
      rw [formulaName?_eq_some_iff.mpr hjoined.symm] at hformula
      cases hformula
    · by_cases hfile : first = "file"
      · subst hfile
        cases hfield : FileField.ofName? field with
        | some fact =>
          refine .inl ⟨by simp [hfield], fun snapshot doc => ?_⟩
          simp only [Document.property, hfield]
          exact raises_fileField fact
        | none =>
          refine .inr ⟨by simp [hfield], _, .file, fun snapshot doc => ?_⟩
          simp only [Document.property, hfield]
          rw [← hjoined]
          rfl
      · refine .inr ⟨by simp [hfirst, hfile], _, .path, fun snapshot doc => ?_⟩
        rw [← htext]
        simp [Document.property, hfile]
  | first :: second :: third :: rest =>
    refine .inr ⟨by simp, _, .path, fun snapshot doc => ?_⟩
    rw [← htext, hpieces]
    simp [Document.property]

/-- A property that is no formula of the definition is a column to sort by if no document rejects
it, and else every document rejects it. A formula is computed whatever its name is, and it is a
column to sort by unless there is a dot in its name. -/
theorem isColumn_iff_computable (definition : Definition) :
    (∀ property, property ≠ "" →
      (∀ name, property = "formula." ++ name → definition.formula? name = none) →
      (definition.isColumn property = true ∧ definition.Computable property) ∨
        (definition.isColumn property = false ∧ definition.Rejected property)) ∧
    ∀ name formula, definition.formula? name = some formula →
      (∀ snapshot doc,
        definition.value snapshot doc ("formula." ++ name) = formula.evaluate snapshot doc) ∧
      (definition.isColumn ("formula." ++ name) = true ↔ '.' ∉ name.toList) := by
  constructor
  · intro property hproperty hunknown
    cases hformula : formulaName? property with
    | none =>
      refine (isColumn_of_no_formula definition hproperty hformula).imp_left fun h => ⟨h.1, ?_⟩
      intro snapshot doc
      refine (h.2 snapshot doc).mono fun he hrejects => ?_
      obtain ⟨path, rfl⟩ := he
      cases hrejects
    | some name =>
      obtain rfl := formulaName?_eq_some_iff.mp hformula
      have hnone := hunknown name rfl
      refine .inr ⟨?_, _, .formula, fun snapshot doc => ?_⟩
      · rw [Bool.eq_false_iff, ne_eq, isColumn_formula_iff, hnone]
        simp
      · rw [value, hformula]
        dsimp only
        rw [hnone]
  · intro name formula hname
    refine ⟨value_formula hname, ?_⟩
    rw [isColumn_formula_iff, hname]
    simp

/-- A definition with a formula that all documents compute, and by which no view can be sorted. -/
theorem isColumn_dotted_formula :
    let definition : Definition :=
      ⟨"orders.base", .trivial, [("net.total", ⟨"2", .literal (.int 2)⟩)], [], []⟩
    (∀ snapshot doc, definition.value snapshot doc "formula.net.total" = pure (.int 2)) ∧
      definition.Computable "formula.net.total" ∧
      definition.isColumn "formula.net.total" = false := by
  intro definition
  have hname : definition.formula? "net.total" = some ⟨"2", .literal (.int 2)⟩ := rfl
  have hcolumn : "formula." ++ "net.total" = "formula.net.total" := by decide
  have hvalue (snapshot : Snapshot) (doc : Document) :
      definition.value snapshot doc "formula.net.total" = pure (.int 2) :=
    hcolumn ▸ value_formula hname snapshot doc
  refine ⟨hvalue, fun snapshot doc => ?_, ?_⟩
  · rw [hvalue]
    exact .pure _
  · have hdot : '.' ∈ "net.total".toList := by decide
    rw [← hcolumn, Bool.eq_false_iff, ne_eq, isColumn_formula_iff]
    exact fun h => h.1 hdot

end Definition

end CorpusQuery
