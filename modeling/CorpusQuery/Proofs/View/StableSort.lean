import CorpusQuery.Proofs.View.Correspondence

/-!
# Stable sorting

A view sorts the rows of its table by keys. In a column that holds integers and floats only, all
keys are numbers; in any other column all keys are texts. The order of rows compares them column by
column, in the order of the plan, and is turned round in a column with descending direction. It is
a total preorder, and sorting is stable: rows that agree in all columns of the plan stay in the
order in which they were, whatever the directions (`sort_stable_of_homogeneous`).
-/

namespace CorpusQuery

open Job

/-! ## Keys -/

namespace Value

/-- Whether there is no value to sort by. -/
def isMissing : Value → Bool
  | .null => true
  | .float x => x.isNaN
  | _ => false

/-- The number that a column of numbers is sorted by; a missing value counts as zero. -/
def sortNumber (value : Value) : Float :=
  match value.number? with
  | some x => if x.isNaN then 0 else x
  | none => 0

/-- The text that any other column is sorted by; a missing value counts as empty. -/
def sortText (value : Value) : String := if value.isMissing then "" else value.cell.text

/-- Whether a value is an integer or a float. -/
def IsNumber (value : Value) : Prop := (∃ i, value = .int i) ∨ ∃ x, value = .float x

theorem isNumeric_iff (value : Value) : value.isNumeric = true ↔ value.IsNumber := by
  cases value <;> simp [isNumeric, IsNumber]

end Value

namespace SortKey

/-- Whether two keys are both numbers or both texts. -/
def SameKind : SortKey → SortKey → Prop
  | .number _, .number _ => True
  | .text _, .text _ => True
  | _, _ => False

/-- What stands in the place of a missing value is not a number. -/
theorem isNaN_quotient : (0.0 / 0.0 : Float).isNaN = true := by decide +kernel

theorem ofCell_number {value : Value} (h : value.cell.IsNumber) :
    ofCell true value.cell = .number value.sortNumber := by
  cases value with
  | null => simp only [ofCell, Value.cell, Value.number?, Value.sortNumber, isNaN_quotient, if_true]
  | int i => rfl
  | float x => rfl
  | _ => simp [Value.cell, Value.isPrimitive, Value.IsNumber] at h

theorem ofCell_text (value : Value) : ofCell false value.cell = .text value.sortText := by
  cases value with
  | null =>
    simp only [ofCell, Value.cell, Value.sortText, Value.isMissing, isNaN_quotient, if_true]
    rfl
  | _ => rfl

theorem compare_swap (k l : SortKey) : k.compare l = (l.compare k).swap := by
  cases k with
  | number x =>
    cases l with
    | number y => exact Std.OrientedOrd.eq_swap (a := place x) (b := place y)
    | text t => rfl
  | text s =>
    cases l with
    | number y => rfl
    | text t => exact Std.OrientedOrd.eq_swap (a := s) (b := t)

theorem compare_isLE_trans {k l m : SortKey} (hkl : (k.compare l).isLE = true)
    (hlm : (l.compare m).isLE = true) : (k.compare m).isLE = true := by
  match k, l, m, hkl, hlm with
  | .number x, .number y, .number z, hkl, hlm =>
    exact Std.TransOrd.isLE_trans (a := place x) (b := place y) (c := place z) hkl hlm
  | .text s, .text t, .text u, hkl, hlm =>
    exact Std.TransOrd.isLE_trans (a := s) (b := t) (c := u) hkl hlm
  | .number _, _, .text _, _, _ => rfl
  | .text _, .number _, _, hkl, _ => exact nomatch hkl
  | _, .text _, .number _, _, hlm => exact nomatch hlm

/-- The order of keys is a total preorder, numbers before texts. -/
instance : Std.TransCmp SortKey.compare where
  eq_swap {k l} := compare_swap k l
  isLE_trans := compare_isLE_trans

end SortKey

/-! ## The order of rows -/

/-- The order of two keys in a given direction. -/
def Direction.compare : Direction → SortKey → SortKey → Ordering
  | .ascending, k, l => k.compare l
  | .descending, k, l => l.compare k

instance (direction : Direction) : Std.TransCmp direction.compare :=
  match direction with
  | .ascending => inferInstanceAs (Std.TransCmp SortKey.compare)
  | .descending => inferInstanceAs (Std.TransCmp fun k l : SortKey => l.compare k)

/-- Keys that agree in one direction agree in the other. -/
theorem Direction.compare_eq_iff (direction : Direction) (k l : SortKey) :
    direction.compare k l = .eq ↔ k.compare l = .eq := by
  cases direction with
  | ascending => exact Iff.rfl
  | descending => exact Std.OrientedCmp.eq_comm

namespace Table

variable (numeric : List Bool)

/-- The key of a row in the column at a position. -/
def keyAt (position : Nat) (row : List Value) : SortKey :=
  SortKey.ofCell (numeric.getD position true) (cellAt row position)

/-- The order of two rows for one step of a plan. -/
def compareAt (step : SortStep) (a b : List Value) : Ordering :=
  step.direction.compare (keyAt numeric step.position a) (keyAt numeric step.position b)

/-- The order of two rows for a plan. -/
def compareRows (plan : List SortStep) (a b : List Value) : Ordering :=
  compareKeys plan (keysOf numeric plan a) (keysOf numeric plan b)

theorem compareRows_nil (a b : List Value) : compareRows numeric [] a b = .eq := rfl

theorem compareRows_cons (step : SortStep) (plan : List SortStep) (a b : List Value) :
    compareRows numeric (step :: plan) a b =
      (compareAt numeric step a b).then (compareRows numeric plan a b) := by
  obtain ⟨position, direction⟩ := step
  cases direction <;> rfl

instance (step : SortStep) : Std.TransCmp (compareAt numeric step) :=
  have hkeys : Std.TransCmp step.direction.compare := inferInstance
  { eq_swap := hkeys.eq_swap, isLE_trans := hkeys.isLE_trans }

/-- The order of rows is a total preorder: each step of the plan is one, and a step counts among
rows that agree in all steps before it. -/
instance transCmp_compareRows (plan : List SortStep) : Std.TransCmp (compareRows numeric plan) := by
  induction plan with
  | nil => exact { eq_swap := rfl, isLE_trans := fun _ _ => rfl }
  | cons step plan ih =>
    have hlex : compareRows numeric (step :: plan) =
        compareLex (compareAt numeric step) (compareRows numeric plan) := by
      funext a b
      exact compareRows_cons numeric step plan a b
    rw [hlex]
    infer_instance

/-- Rows are tied if they agree in every column of the plan, whatever the directions. -/
theorem compareRows_eq_iff (plan : List SortStep) (a b : List Value) :
    compareRows numeric plan a b = .eq ↔
      ∀ step ∈ plan,
        (keyAt numeric step.position a).compare (keyAt numeric step.position b) = .eq := by
  induction plan with
  | nil => simp [compareRows_nil]
  | cons step plan ih =>
    rw [compareRows_cons, Ordering.then_eq_eq, ih, List.forall_mem_cons, compareAt,
      Direction.compare_eq_iff]

/-- The first step in which two rows differ decides. -/
theorem compareRows_eq_iff_decided (plan : List SortStep) (a b : List Value) {order : Ordering}
    (horder : order ≠ .eq) :
    compareRows numeric plan a b = order ↔
      ∃ before step after, plan = before ++ step :: after ∧
        (∀ earlier ∈ before, compareAt numeric earlier a b = .eq) ∧
        compareAt numeric step a b = order := by
  induction plan with
  | nil => simp [compareRows_nil, horder.symm]
  | cons first plan ih =>
    rw [compareRows_cons]
    cases hfirst : compareAt numeric first a b with
    | eq =>
      rw [Ordering.eq_then, ih]
      constructor
      · rintro ⟨before, step, after, rfl, hbefore, hstep⟩
        exact ⟨first :: before, step, after, rfl, List.forall_mem_cons.mpr ⟨hfirst, hbefore⟩, hstep⟩
      · rintro ⟨before, step, after, hplan, hbefore, hstep⟩
        cases before with
        | nil =>
          cases hplan
          exact absurd (hstep.symm.trans hfirst) horder
        | cons _ before =>
          cases hplan
          exact ⟨before, step, after, rfl, (List.forall_mem_cons.mp hbefore).2, hstep⟩
    | _ =>
      constructor
      · rintro h
        exact ⟨[], first, plan, rfl, List.forall_mem_nil _, hfirst.trans h⟩
      · rintro ⟨before, step, after, hplan, hbefore, hstep⟩
        cases before with
        | nil =>
          cases hplan
          exact hfirst.symm.trans hstep
        | cons _ before =>
          cases hplan
          exact nomatch hfirst.symm.trans (List.forall_mem_cons.mp hbefore).1

/-! ## Columns -/

/-- Whether all cells in a column are integers and floats. -/
def HoldsNumbers (table : List (List Value)) (position : Nat) : Prop :=
  ∀ row ∈ table, ∀ cell, row[position]? = some cell → cell.IsNumber

/-- The table that a view stores of computed values. -/
def ofValues (values : List (List Value)) : List (List Value) :=
  values.map fun row => row.map Value.cell

/-- Whether the keys of a column are all numbers, and then it holds nothing else, or all texts, and
then it holds something else. -/
def Homogeneous (values : List (List Value)) (position : Nat) : Prop :=
  (HoldsNumbers (ofValues values) position ∧
    ∀ row ∈ values, ∃ value, row[position]? = some value ∧
      keyAt numeric position (row.map Value.cell) = .number value.sortNumber) ∨
  (¬ HoldsNumbers (ofValues values) position ∧
    ∀ row ∈ values, ∃ value, row[position]? = some value ∧
      keyAt numeric position (row.map Value.cell) = .text value.sortText)

variable {numeric} {width position : Nat} {values : List (List Value)}

theorem exists_getElem? (hwidth : ∀ row ∈ values, row.length = width) (hposition : position < width)
    {row : List Value} (hrow : row ∈ values) : ∃ value, row[position]? = some value :=
  ⟨_, List.getElem?_eq_getElem (hwidth row hrow ▸ hposition)⟩

theorem cellAt_of_getElem? {row : List Value} {value : Value} (h : row[position]? = some value) :
    cellAt (row.map Value.cell) position = value.cell := by
  rw [cellAt, List.getD_eq_getElem?_getD, List.getElem?_map, h]
  rfl

theorem isNumericColumn_iff (hwidth : ∀ row ∈ values, row.length = width)
    (hposition : position < width) :
    isNumericColumn (ofValues values) position = true ↔
      HoldsNumbers (ofValues values) position := by
  simp only [isNumericColumn, HoldsNumbers, ofValues, List.all_map, List.all_eq_true,
    List.forall_mem_map, Function.comp_apply, List.getElem?_map]
  refine forall₂_congr fun row hrow => ?_
  obtain ⟨value, hvalue⟩ := exists_getElem? hwidth hposition hrow
  rw [cellAt_of_getElem? hvalue, hvalue, Value.isNumeric_iff]
  simp

theorem numericColumns_getD (hposition : position < width) :
    (numericColumns width (ofValues values)).getD position true =
      isNumericColumn (ofValues values) position := by
  rw [numericColumns, List.getD_eq_getElem?_getD, List.getElem?_map,
    List.getElem?_range hposition]
  rfl

/-- Each column of a table has keys of one kind. -/
theorem homogeneous (hwidth : ∀ row ∈ values, row.length = width) (hposition : position < width) :
    Homogeneous (numericColumns width (ofValues values)) values position := by
  have hnumeric := isNumericColumn_iff hwidth hposition
  by_cases hholds : HoldsNumbers (ofValues values) position
  · refine .inl ⟨hholds, fun row hrow => ?_⟩
    obtain ⟨value, hvalue⟩ := exists_getElem? hwidth hposition hrow
    refine ⟨value, hvalue, ?_⟩
    rw [keyAt, numericColumns_getD hposition, hnumeric.mpr hholds, cellAt_of_getElem? hvalue]
    refine SortKey.ofCell_number (hholds _ (List.mem_map_of_mem hrow) _ ?_)
    rw [List.getElem?_map, hvalue]
    rfl
  · refine .inr ⟨hholds, fun row hrow => ?_⟩
    obtain ⟨value, hvalue⟩ := exists_getElem? hwidth hposition hrow
    refine ⟨value, hvalue, ?_⟩
    rw [keyAt, numericColumns_getD hposition, Bool.eq_false_of_not_eq_true (mt hnumeric.mp hholds),
      cellAt_of_getElem? hvalue]
    exact SortKey.ofCell_text value

/-- A number is never compared with a text. -/
theorem Homogeneous.sameKind (h : Homogeneous numeric values position) {a b : List Value}
    (ha : a ∈ ofValues values) (hb : b ∈ ofValues values) :
    (keyAt numeric position a).SameKind (keyAt numeric position b) := by
  obtain ⟨a, hamem, rfl⟩ := List.mem_map.mp ha
  obtain ⟨b, hbmem, rfl⟩ := List.mem_map.mp hb
  rcases h with ⟨-, hkeys⟩ | ⟨-, hkeys⟩
  all_goals
    obtain ⟨_, -, hkey⟩ := hkeys a hamem
    obtain ⟨_, -, hkey'⟩ := hkeys b hbmem
    rw [hkey, hkey']
    trivial

/-! ## Sorting -/

/-- Whether one list is the other one sorted by a total preorder, with ties left in their order. -/
structure StablySorted {α : Type} (order : α → α → Ordering) (before after : List α) : Prop where
  perm : after.Perm before
  sorted : after.Pairwise fun a b => (order a b).isLE = true
  stable : ∀ a, after.filter (order a · == .eq) = before.filter (order a · == .eq)

theorem stablySorted_mergeSort {α : Type} (order : α → α → Ordering) [Std.TransCmp order]
    (before : List α) :
    StablySorted order before (before.mergeSort fun a b => (order a b).isLE) := by
  have htrans (a b c : α) (hab : (order a b).isLE = true) (hbc : (order b c).isLE = true) :
      (order a c).isLE = true := Std.TransCmp.isLE_trans hab hbc
  have htotal (a b : α) : ((order a b).isLE || (order b a).isLE) = true := by
    have hswap : order b a = (order a b).swap := Std.OrientedCmp.eq_swap
    rw [hswap]
    cases order a b <;> rfl
  refine ⟨List.mergeSort_perm _ _, List.pairwise_mergeSort htrans htotal before, fun a => ?_⟩
  -- the ties with `a` are sorted as they are, so they are a part of the sorted list
  have hties : (before.filter (order a · == .eq)).Pairwise fun b c => (order b c).isLE = true := by
    refine List.pairwise_of_forall_mem_list fun b hb c hc => ?_
    have hb : order a b = .eq := eq_of_beq (List.mem_filter.mp hb).2
    have hc : order a c = .eq := eq_of_beq (List.mem_filter.mp hc).2
    rw [← Std.TransCmp.congr_left hb, hc]
    rfl
  have hsub := (List.sublist_mergeSort htrans htotal hties List.filter_sublist).filter
    (order a · == .eq)
  rw [List.filter_filter] at hsub
  simp only [Bool.and_self] at hsub
  exact (hsub.eq_of_length ((List.mergeSort_perm _ _).filter _).length_eq.symm).symm

/-- Sorting by the keys of the rows is sorting by the order of rows. -/
theorem sort_eq_mergeSort (plan : List SortStep) (table : List (List Value)) :
    sort numeric plan table = table.mergeSort fun a b => (compareRows numeric plan a b).isLE := by
  rw [sort, List.map_mergeSort (s := fun a b => (compareRows numeric plan a b).isLE)]
  · rw [List.map_map]
    exact congrArg (List.mergeSort · _) (List.map_id table)
  · intro a ha b hb
    obtain ⟨a, -, rfl⟩ := List.mem_map.mp ha
    obtain ⟨b, -, rfl⟩ := List.mem_map.mp hb
    rfl

/-- Without steps nothing moves. -/
theorem sort_nil (table : List (List Value)) : sort numeric [] table = table := by
  rw [sort_eq_mergeSort]
  exact List.mergeSort_of_pairwise (List.pairwise_of_forall fun _ _ => rfl)

/-- The rows of a table of equally long rows are sorted stably, by an order that is a total preorder
and that compares, in each column of the plan, numbers with numbers or texts with texts. -/
theorem sort_stable_of_homogeneous (width : Nat) (values : List (List Value))
    (plan : List SortStep) (hwidth : ∀ row ∈ values, row.length = width)
    (hplan : ∀ step ∈ plan, step.position < width) :
    let table := ofValues values
    let numeric := numericColumns width table
    (∀ position < width, Homogeneous numeric values position) ∧
    (∀ step ∈ plan, ∀ a ∈ table, ∀ b ∈ table,
      (keyAt numeric step.position a).SameKind (keyAt numeric step.position b)) ∧
    Std.TransCmp (compareRows numeric plan) ∧
    (∀ a b, compareRows numeric plan a b = .eq ↔
      ∀ step ∈ plan,
        (keyAt numeric step.position a).compare (keyAt numeric step.position b) = .eq) ∧
    (∀ a b order, order ≠ .eq →
      (compareRows numeric plan a b = order ↔
        ∃ before step after, plan = before ++ step :: after ∧
          (∀ earlier ∈ before, compareAt numeric earlier a b = .eq) ∧
          compareAt numeric step a b = order)) ∧
    StablySorted (compareRows numeric plan) table (sort numeric plan table) ∧
    (plan = [] → sort numeric plan table = table) := by
  intro table numeric
  refine ⟨fun position hposition => homogeneous hwidth hposition,
    fun step hstep a ha b hb => (homogeneous hwidth (hplan step hstep)).sameKind ha hb,
    inferInstance, compareRows_eq_iff numeric plan,
    fun a b order horder => compareRows_eq_iff_decided numeric plan a b horder, ?_, ?_⟩
  · rw [sort_eq_mergeSort]
    exact stablySorted_mergeSort _ table
  · rintro rfl
    exact sort_nil table

/-- Of four rows two have one key in each of the two columns that they are sorted by: these stay in
their order, although the first column is sorted downwards. -/
theorem sort_stable_of_homogeneous_of_ties :
    let first := [Value.str "b", .int 1, .str "first"]
    let values := [first, [.str "a", .int 1, .null], [.str "b", .float 2, .bool true],
      [.str "b", .int 1, .str "fourth"]]
    let plan := [SortStep.mk 0 .descending, SortStep.mk 1 .ascending]
    let numeric := numericColumns 3 (ofValues values)
    (∀ row ∈ values, row.length = 3) ∧ (∀ step ∈ plan, step.position < 3) ∧
      ((sort numeric plan (ofValues values)).filter (compareRows numeric plan first · == .eq)).map
        (fun row => (cellAt row 2).text) = ["first", "fourth"] := by
  intro first values plan numeric
  have hwidth : ∀ row ∈ values, row.length = 3 := by decide
  have hplan : ∀ step ∈ plan, step.position < 3 := by decide
  obtain ⟨-, -, -, -, -, hsorted, -⟩ := sort_stable_of_homogeneous 3 values plan hwidth hplan
  refine ⟨hwidth, hplan, ?_⟩
  rw [hsorted.stable first]
  decide +kernel

end Table

/-! ## The rows of a view -/

namespace Definition

variable {σ : Type} {definition : Definition} {corpus : Corpus} {view : View}

/-- A view is sorted by columns that it computes. -/
theorem position_lt_of_sortPlan {layout : Layout} {sorts : List SortColumn}
    {plan : List SortStep} {s : σ}
    (hshown : ∀ position ∈ layout.shown, position < layout.columns.length)
    (h : ((sortPlan corpus view layout sorts : Job σ _).run s).result = .ok plan) :
    ∀ step ∈ plan, step.position < layout.columns.length := by
  have husable (sort : SortColumn) (step : SortStep)
      (hstep : (layout.position? sort.column).map (SortStep.mk · sort.direction) = some step) :
      step.position < layout.columns.length := by
    obtain ⟨position, hposition, rfl⟩ := Option.map_eq_some_iff.mp hstep
    exact (List.findIdx?_eq_some_iff_findIdx_eq.mp hposition).1
  unfold sortPlan at h
  dsimp only at h
  split at h
  · cases h
    intro step hstep
    obtain ⟨sort, -, hsort⟩ := List.mem_filterMap.mp hstep
    exact husable sort step hsort
  · -- no entry counts: the first column shown, if there is one, after a notice or two
    cases hpositions : layout.shown with
    | nil =>
      rw [hpositions] at h
      have hplan : plan = [] := by
        split at h
        · obtain ⟨_, -, h⟩ := result_bind_eq_ok h
          cases h
          rfl
        · cases h
          rfl
      rw [hplan]
      exact List.forall_mem_nil _
    | cons position positions =>
      rw [hpositions] at h
      have hplan : plan = [⟨position, .ascending⟩] := by
        split at h
        · obtain ⟨_, -, h⟩ := result_bind_eq_ok h
          obtain ⟨_, -, h⟩ := result_bind_eq_ok h
          cases h
          rfl
        · obtain ⟨_, -, h⟩ := result_bind_eq_ok h
          cases h
          rfl
      rw [hplan]
      exact List.forall_mem_singleton.mpr (hshown position (hpositions ▸ List.mem_cons_self))

/-- The rows of a view show a table that is sorted stably by a plan for its columns. -/
theorem arrange_stablySorted {sorts : List SortColumn} {values : List (List Value)}
    {rows : List Row} {s : σ}
    (h : ((definition.arrange corpus view sorts values).run s).result = .ok rows) :
    let layout := Layout.ofView view sorts
    let table := Table.ofValues values
    ∃ plan sorted, (∀ step ∈ plan, step.position < layout.columns.length) ∧
      Table.StablySorted
        (Table.compareRows (Table.numericColumns layout.columns.length table) plan) table sorted ∧
      rows = sorted.map (definition.row layout) := by
  unfold arrange at h
  obtain ⟨plan, hplan, h⟩ := result_bind_eq_ok h
  cases h
  refine ⟨plan, _, position_lt_of_sortPlan (Layout.shows_ofView view sorts).inside hplan, ?_, rfl⟩
  rw [Table.sort_eq_mergeSort]
  exact Table.stablySorted_mergeSort _ _

end Definition

end CorpusQuery
