import CorpusQuery.Expr.Eval
import CorpusQuery.Proofs.Value.Doubles

/-!
# Comparison of integers

Integers are added, subtracted and multiplied exactly, and compared as doubles. So two integers
compare as the integers with 53 digits that are nearest to them. What is found to be less is less,
but of two integers with more digits that are found to be equal one may be less
(`compare_integers_rounded`, `not_comparesExactly_above_two_pow_53`).
-/

namespace CorpusQuery

/-- What a comparison says of two values in a given order. Membership says nothing of an order. -/
def CompareOp.decides : CompareOp → Ordering → Bool
  | .eq, order => order == .eq
  | .ne, order => order != .eq
  | .lt, order => order == .lt
  | .le, order => order != .gt
  | .gt, order => order == .gt
  | .ge, order => order != .lt
  | .isIn, _ | .notIn, _ => false

namespace Value

variable (a b : Int64)

/-- The order of the integers that two integers are rounded to. -/
def roundedOrder : Ordering := Ord.compare (nearest a.toInt) (nearest b.toInt)

theorem holds_floatOfInt : Double.Holds (floatOfInt a).toModel.unpack (nearest a.toInt) := by
  have hlow := Int64.le_toInt a
  have hhigh := Int64.toInt_lt a
  exact Double.holds_ofInt (by omega)

theorem equal_int : (Value.int a).equal (.int b) = (roundedOrder a b == .eq) := by
  have hdoubles : (Value.int a).equal (.int b) = (floatOfInt a == floatOfInt b) := rfl
  rw [hdoubles, (holds_floatOfInt a).beq_eq_decide (holds_floatOfInt b), Bool.eq_iff_iff,
    decide_eq_true_iff, beq_iff_eq, roundedOrder, Int.compare_eq_eq]

theorem compare_int : (Value.int a).compare (.int b) = .ok (roundedOrder a b) := by
  have hdoubles : (Value.int a).compare (.int b) =
      compareNumbers (floatOfInt a) (floatOfInt b) := rfl
  rw [hdoubles, (holds_floatOfInt a).compareNumbers_eq (holds_floatOfInt b), roundedOrder]

theorem compareValues_int {op : CompareOp} (hin : op ≠ .isIn) (hnotIn : op ≠ .notIn) :
    Expr.compareValues op (.int a) (.int b) = .ok (op.decides (roundedOrder a b)) := by
  cases op with
  | eq | ne => simp only [Expr.compareValues, equal_int, CompareOp.decides, bne]
  | lt | le | gt | ge => simp only [Expr.compareValues, compare_int]; rfl
  | isIn => exact absurd rfl hin
  | notIn => exact absurd rfl hnotIn

theorem contains_int (items : List Int64) :
    contains (.list (items.map .int)) (.int b) =
      .ok (items.any fun item => roundedOrder item b == .eq) := by
  simp only [contains, List.any_map, Function.comp_def, equal_int]

/-- A difference that does not overflow is zero if the integers are equal. -/
theorem sub_int_eq_zero_iff {difference : Value}
    (h : (Value.int a).sub (.int b) = .ok difference) : difference = .int 0 ↔ a = b := by
  have hexact : exact (a.toInt - b.toInt) = .ok difference := h
  obtain ⟨i, hvalue, rfl⟩ := exact_eq_ok_iff.mp hexact
  rw [int.injEq, ← Int64.toInt_inj, ← Int64.toInt_inj, hvalue, Int64.toInt_zero]
  omega

/-! ## Exactness -/

/-- Whether two integers compare as integers do: under equality, order, the six relational
operators and membership, and in agreement with their difference. -/
structure ComparesExactly : Prop where
  equal : (Value.int a).equal (.int b) = true ↔ a = b
  order : (Value.int a).compare (.int b) = .ok (Ord.compare a.toInt b.toInt)
  operators : ∀ op : CompareOp, op ≠ .isIn → op ≠ .notIn →
    Expr.compareValues op (.int a) (.int b) = .ok (op.decides (Ord.compare a.toInt b.toInt))
  member : contains (.list [.int a]) (.int b) = .ok (decide (a = b))
  difference : ∀ difference, (Value.int a).sub (.int b) = .ok difference →
    ((Value.int a).equal (.int b) = true ↔ difference = .int 0)

/-- Rounding keeps the order of two integers unless it makes them equal. -/
theorem roundedOrder_eq_iff :
    roundedOrder a b = Ord.compare a.toInt b.toInt ↔
      (nearest a.toInt = nearest b.toInt → a = b) := by
  rw [roundedOrder, compare_nearest_eq_iff, Int64.toInt_inj]

theorem comparesExactly_iff :
    ComparesExactly a b ↔ (nearest a.toInt = nearest b.toInt → a = b) := by
  rw [← roundedOrder_eq_iff]
  constructor
  · intro h
    exact Except.ok.inj ((compare_int a b).symm.trans h.order)
  · intro h
    have hequal : (Value.int a).equal (.int b) = decide (a = b) := by
      rw [equal_int, h, Bool.eq_iff_iff, beq_iff_eq, Int.compare_eq_eq, decide_eq_true_iff,
        Int64.toInt_inj]
    exact {
      equal := by rw [hequal, decide_eq_true_iff]
      order := by rw [compare_int, h]
      operators := fun op hin hnotIn => by rw [compareValues_int a b hin hnotIn, h]
      member := by simp only [contains, List.any_cons, List.any_nil, Bool.or_false, hequal]
      difference := fun difference hsub => by
        rw [hequal, decide_eq_true_iff, sub_int_eq_zero_iff a b hsub] }

/-- Integers compare as the integers that they are rounded to: under equality, order, the relational
operators and membership. What comes out as less or greater is so. They compare exactly if rounding
does not make different ones equal, and that is so up to `2 ^ 53`. -/
theorem compare_integers_rounded :
    (Value.int a).equal (.int b) = decide (nearest a.toInt = nearest b.toInt) ∧
    (Value.int a).compare (.int b) = .ok (Ord.compare (nearest a.toInt) (nearest b.toInt)) ∧
    (∀ op : CompareOp, op ≠ .isIn → op ≠ .notIn →
      Expr.compareValues op (.int a) (.int b) =
        .ok (op.decides (Ord.compare (nearest a.toInt) (nearest b.toInt)))) ∧
    (∀ items : List Int64, contains (.list (items.map .int)) (.int b) =
      .ok (items.any fun item => nearest item.toInt = nearest b.toInt)) ∧
    (∀ order, order ≠ .eq → (Value.int a).compare (.int b) = .ok order →
      Ord.compare a.toInt b.toInt = order) ∧
    (ComparesExactly a b ↔ (nearest a.toInt = nearest b.toInt → a = b)) ∧
    (a.toInt.natAbs ≤ 2 ^ 53 → b.toInt.natAbs ≤ 2 ^ 53 → ComparesExactly a b) := by
  have hequal (i j : Int64) :
      (roundedOrder i j == .eq) = decide (nearest i.toInt = nearest j.toInt) := by
    rw [Bool.eq_iff_iff, beq_iff_eq, decide_eq_true_iff, roundedOrder, Int.compare_eq_eq]
  refine ⟨by rw [equal_int, hequal], compare_int a b, fun op => compareValues_int a b,
    fun items => ?_, fun order horder h => ?_, comparesExactly_iff a b, fun ha hb => ?_⟩
  · simp only [contains_int, hequal]
  · have hrounded : roundedOrder a b = order := Except.ok.inj ((compare_int a b).symm.trans h)
    have hkept : nearest a.toInt = nearest b.toInt → a = b := fun heq =>
      absurd (hrounded.symm.trans (Int.compare_eq_eq.mpr heq)) horder
    exact ((roundedOrder_eq_iff a b).mpr hkept).symm.trans hrounded
  · rw [comparesExactly_iff, nearest_of_natAbs_le ha, nearest_of_natAbs_le hb]
    exact Int64.toInt_inj.mp

/-- Two integers that differ by one, and come out as equal. -/
theorem not_comparesExactly_above_two_pow_53 :
    (Value.int 9007199254740992).equal (.int 9007199254740993) = true ∧
      (Value.int 9007199254740992).compare (.int 9007199254740993) = .ok .eq ∧
      contains (.list [.int 9007199254740992]) (.int 9007199254740993) = .ok true ∧
      (Value.int 9007199254740992).sub (.int 9007199254740993) = .ok (.int (-1)) ∧
      ¬ComparesExactly 9007199254740992 9007199254740993 := by
  have hrounded : roundedOrder 9007199254740992 9007199254740993 = .eq := by decide +kernel
  refine ⟨by rw [equal_int, hrounded]; rfl, by rw [compare_int, hrounded], ?_, rfl, fun h => ?_⟩
  · refine (contains_int 9007199254740993 [9007199254740992]).trans ?_
    rw [List.any_cons, hrounded]
    rfl
  · have hequal := h.equal
    rw [equal_int, hrounded] at hequal
    exact absurd (hequal.mp rfl) (by decide)

end Value

end CorpusQuery
