import CorpusQuery.Proofs.Value.Places
import CorpusQuery.Proofs.View.StableSort

/-!
# Columns of integers

A column that holds only integers is a column of numbers, and its keys are doubles. So its rows are
sorted by the integers that theirs are rounded to, and rows that are rounded to the same integer
stay in the order in which they were. That is the order of the integers if rounding makes no two of
them equal, as it does not up to `2 ^ 53` (`sort_by_rounded_integers`). Beyond that, integers can
come out in the wrong order (`not_sortsIntegers_above_two_pow_53`).
-/

namespace CorpusQuery

/-- The order of two integers in a given direction. -/
def Direction.compareIntegers : Direction → Int → Int → Ordering
  | .ascending, i, j => Ord.compare i j
  | .descending, i, j => Ord.compare j i

theorem Direction.compareIntegers_eq_iff (direction : Direction) (i j : Int) :
    direction.compareIntegers i j = .eq ↔ i = j := by
  cases direction with
  | ascending => exact Int.compare_eq_eq
  | descending => exact Int.compare_eq_eq.trans eq_comm

/-- Integers that are rounded to different integers are in the order of these. -/
theorem Direction.compareIntegers_nearest (direction : Direction) {i j : Int}
    (h : nearest i = nearest j → i = j) :
    direction.compareIntegers (nearest i) (nearest j) = direction.compareIntegers i j := by
  cases direction with
  | ascending => exact (compare_nearest_eq_iff i j).mpr h
  | descending => exact (compare_nearest_eq_iff j i).mpr fun heq => (h heq.symm).symm

namespace Table

/-- Whether all cells in a column are integers. -/
def HoldsIntegers (table : List (List Value)) (position : Nat) : Prop :=
  ∀ row ∈ table, ∃ i, row[position]? = some (.int i)

/-- The integer at a position of a row. -/
def integerAt (position : Nat) (row : List Value) : Int :=
  match row[position]? with
  | some (.int i) => i.toInt
  | _ => 0

/-- Whether sorting a table by one column of integers puts these in order, and ties no rows but
those with the same integer. -/
structure SortsIntegers (numeric : List Bool) (step : SortStep) (table : List (List Value)) :
    Prop where
  sorted : (sort numeric [step] table).Pairwise fun a b =>
    (step.direction.compareIntegers (integerAt step.position a)
      (integerAt step.position b)).isLE = true
  ties : ∀ a ∈ table, ∀ b ∈ table, compareRows numeric [step] a b = .eq →
    integerAt step.position a = integerAt step.position b

variable {table : List (List Value)} {position : Nat}

theorem HoldsIntegers.getD_numericColumns (h : HoldsIntegers table position) (width : Nat) :
    (numericColumns width table).getD position true = true := by
  have hnumeric : isNumericColumn table position = true := by
    rw [isNumericColumn, List.all_eq_true]
    intro row hrow
    obtain ⟨i, hi⟩ := h row hrow
    rw [cellAt, List.getD_eq_getElem?_getD, hi]
    rfl
  rw [numericColumns, List.getD_eq_getElem?_getD, List.getElem?_map]
  rcases Nat.lt_or_ge position width with hlt | hge
  · rw [List.getElem?_range hlt]
    exact hnumeric
  · rw [List.getElem?_eq_none (by rw [List.length_range]; exact hge)]
    rfl

/-- Rows are in the order of what their integers are rounded to. -/
theorem HoldsIntegers.compareRows_eq (h : HoldsIntegers table position) (width : Nat)
    (direction : Direction) {a b : List Value} (ha : a ∈ table) (hb : b ∈ table) :
    compareRows (numericColumns width table) [⟨position, direction⟩] a b =
      direction.compareIntegers (nearest (integerAt position a))
        (nearest (integerAt position b)) := by
  obtain ⟨i, hi⟩ := h a ha
  obtain ⟨j, hj⟩ := h b hb
  have hkey {row : List Value} {k : Int64} (hk : row[position]? = some (.int k)) :
      keyAt (numericColumns width table) position row = SortKey.ofCell true (.int k) := by
    rw [keyAt, h.getD_numericColumns, cellAt, List.getD_eq_getElem?_getD, hk]
    rfl
  rw [compareRows_cons, compareRows_nil, Ordering.then_eq, compareAt, hkey hi, hkey hj, integerAt,
    integerAt, hi, hj]
  cases direction with
  | ascending => exact SortKey.compare_ofCell_int i j
  | descending => exact SortKey.compare_ofCell_int j i

theorem sort_stablySorted (numeric : List Bool) (plan : List SortStep) (table : List (List Value)) :
    StablySorted (compareRows numeric plan) table (sort numeric plan table) := by
  rw [sort_eq_mergeSort]
  exact stablySorted_mergeSort _ table

/-- Rounding makes no different integers of a column equal. -/
def KeepsApart (table : List (List Value)) (position : Nat) : Prop :=
  ∀ a ∈ table, ∀ b ∈ table, nearest (integerAt position a) = nearest (integerAt position b) →
    integerAt position a = integerAt position b

theorem keepsApart_of_small (h : ∀ row ∈ table, (integerAt position row).natAbs ≤ 2 ^ 53) :
    KeepsApart table position := by
  intro a ha b hb hsame
  rwa [nearest_of_natAbs_le (h a ha), nearest_of_natAbs_le (h b hb)] at hsame

/-- After sorting, rows are in order, or their integers are rounded to the same one. -/
theorem HoldsIntegers.pairwise_sort (h : HoldsIntegers table position) (width : Nat)
    (direction : Direction) :
    (sort (numericColumns width table) [⟨position, direction⟩] table).Pairwise fun a b =>
      (direction.compareIntegers (integerAt position a) (integerAt position b)).isLE = true ∨
        nearest (integerAt position a) = nearest (integerAt position b) := by
  have hsorted := sort_stablySorted (numericColumns width table) [⟨position, direction⟩] table
  refine hsorted.sorted.imp_of_mem fun {a b} ha hb hle => ?_
  rw [h.compareRows_eq width direction (hsorted.perm.mem_iff.mp ha)
    (hsorted.perm.mem_iff.mp hb)] at hle
  by_cases hsame : nearest (integerAt position a) = nearest (integerAt position b)
  · exact .inr hsame
  · rw [direction.compareIntegers_nearest fun heq => absurd heq hsame] at hle
    exact .inl hle

theorem HoldsIntegers.sortsIntegers_iff (h : HoldsIntegers table position) (width : Nat)
    (direction : Direction) :
    SortsIntegers (numericColumns width table) ⟨position, direction⟩ table ↔
      KeepsApart table position := by
  have htie {a b : List Value} (ha : a ∈ table) (hb : b ∈ table) :
      compareRows (numericColumns width table) [⟨position, direction⟩] a b = .eq ↔
        nearest (integerAt position a) = nearest (integerAt position b) := by
    rw [h.compareRows_eq width direction ha hb, direction.compareIntegers_eq_iff]
  constructor
  · exact fun hsorts a ha b hb hsame => hsorts.ties a ha b hb ((htie ha hb).mpr hsame)
  · intro hapart
    have hperm := (sort_stablySorted (numericColumns width table) [⟨position, direction⟩] table).perm
    refine ⟨(h.pairwise_sort width direction).imp_of_mem fun {a b} ha hb horder => ?_,
      fun a ha b hb htied => hapart a ha b hb ((htie ha hb).mp htied)⟩
    rcases horder with hle | hsame
    · exact hle
    · have hequal := hapart a (hperm.mem_iff.mp ha) b (hperm.mem_iff.mp hb) hsame
      rw [(direction.compareIntegers_eq_iff _ _).mpr hequal]
      rfl

/-- The rows of a table with a column of integers are sorted by what these are rounded to, stably.
Two rows are in the wrong order only if their integers are rounded to the same one. All rows are in
order, and only equal integers are tied, exactly if rounding makes no two different integers equal;
up to `2 ^ 53` it does not. -/
theorem sort_by_rounded_integers (width : Nat) (table : List (List Value)) (position : Nat)
    (direction : Direction) (h : HoldsIntegers table position) :
    let numeric := numericColumns width table
    let step : SortStep := ⟨position, direction⟩
    StablySorted (compareRows numeric [step]) table (sort numeric [step] table) ∧
    (∀ a ∈ table, ∀ b ∈ table, compareRows numeric [step] a b =
      direction.compareIntegers (nearest (integerAt position a))
        (nearest (integerAt position b))) ∧
    ((sort numeric [step] table).Pairwise fun a b =>
      (direction.compareIntegers (integerAt position a) (integerAt position b)).isLE = true ∨
        nearest (integerAt position a) = nearest (integerAt position b)) ∧
    (SortsIntegers numeric step table ↔ KeepsApart table position) ∧
    ((∀ row ∈ table, (integerAt position row).natAbs ≤ 2 ^ 53) →
      SortsIntegers numeric step table) :=
  ⟨sort_stablySorted _ _ _, fun _ ha _ hb => h.compareRows_eq width direction ha hb,
    h.pairwise_sort width direction, h.sortsIntegers_iff width direction,
    fun hsmall => (h.sortsIntegers_iff width direction).mpr (keepsApart_of_small hsmall)⟩

/-- Small integers are sorted as they should be. -/
theorem sort_by_rounded_integers_of_small :
    let table := [[Value.int 3], [.int (-1)], [.int 3], [.int 2]]
    HoldsIntegers table 0 ∧
      SortsIntegers (numericColumns 1 table) ⟨0, .descending⟩ table := by
  intro table
  have hintegers : HoldsIntegers table 0 := by
    intro row hrow
    simp only [table, List.mem_cons, List.not_mem_nil, or_false] at hrow
    rcases hrow with rfl | rfl | rfl | rfl <;> exact ⟨_, rfl⟩
  obtain ⟨-, -, -, -, hsmall⟩ := sort_by_rounded_integers 1 table 0 .descending hintegers
  exact ⟨hintegers, hsmall (by decide)⟩

/-- Two integers that differ by one are tied, and stay in the wrong order. -/
theorem not_sortsIntegers_above_two_pow_53 :
    let table := [[Value.int 9007199254740993], [.int 9007199254740992]]
    HoldsIntegers table 0 ∧
      sort (numericColumns 1 table) [⟨0, .ascending⟩] table = table ∧
      ¬((sort (numericColumns 1 table) [⟨0, .ascending⟩] table).Pairwise fun a b =>
        integerAt 0 a ≤ integerAt 0 b) ∧
      ¬SortsIntegers (numericColumns 1 table) ⟨0, .ascending⟩ table := by
  intro table
  have hintegers : HoldsIntegers table 0 := by
    intro row hrow
    simp only [table, List.mem_cons, List.not_mem_nil, or_false] at hrow
    rcases hrow with rfl | rfl <;> exact ⟨_, rfl⟩
  have htied : ∀ a ∈ table, ∀ b ∈ table,
      nearest (integerAt 0 a) = nearest (integerAt 0 b) := by decide +kernel
  have htie {a b : List Value} (ha : a ∈ table) (hb : b ∈ table) :
      compareRows (numericColumns 1 table) [⟨0, .ascending⟩] a b = .eq := by
    rw [hintegers.compareRows_eq 1 .ascending ha hb, Direction.compareIntegers_eq_iff]
    exact htied a ha b hb
  have hsame : sort (numericColumns 1 table) [⟨0, .ascending⟩] table = table := by
    rw [sort_eq_mergeSort]
    refine List.mergeSort_of_pairwise (List.pairwise_of_forall_mem_list fun a ha b hb => ?_)
    rw [htie ha hb]
    rfl
  have hwrong : ¬table.Pairwise fun a b => integerAt 0 a ≤ integerAt 0 b := by decide
  refine ⟨hintegers, hsame, hsame.symm ▸ hwrong, fun h => hwrong ?_⟩
  have hsorted := h.sorted
  rw [hsame] at hsorted
  exact hsorted.imp fun hle => Int.isLE_compare.mp hle

end Table

end CorpusQuery
