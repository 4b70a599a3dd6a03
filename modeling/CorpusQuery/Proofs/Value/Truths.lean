import CorpusQuery.Expr.Eval
import CorpusQuery.Proofs.Value.Ordering
import CorpusQuery.Proofs.Value.Repetition

/-!
# Truth values as integers

A truth value counts as one or zero: it is added, subtracted, multiplied, divided, negated and
compared as that integer is, whatever the other operand is and on whichever side it stands. The one
exception is that nothing is repeated as often as a truth value says: a string or a list times a
truth value has no result, though it has one times the integer (`truth_counts_but_for_repetition`).
-/

namespace CorpusQuery.Value

variable {a a' b b' v : Value} {x : Float} {op : ArithOp}

/-- Two operations that have a result for the same operands, and then the same one. -/
def SameResult {α : Type} (first second : Except EvalError α) : Prop :=
  ∀ result, first = .ok result ↔ second = .ok result

/-- Two values that are the same number in integer arithmetic and as doubles. -/
def SameNumber (a b : Value) : Prop := a.integer? = b.integer? ∧ a.number? = b.number?

/-- The operation on numbers: nothing is appended or repeated. -/
def numerically : ArithOp → Value → Value → Except EvalError Value
  | .add => arithmetic .add (· + ·) (· + ·)
  | .sub => sub
  | .mul => arithmetic .mul (· * ·) (· * ·)
  | .div => div

theorem sameNumber_truth (b : Bool) : SameNumber (.bool b) (.int (ofTruth b)) := ⟨rfl, rfl⟩

theorem SameNumber.refl (v : Value) : SameNumber v v := ⟨rfl, rfl⟩

/-! ## Arithmetic -/

/-- Arithmetic makes no difference between operands that are the same number, but for the kinds
that an error names. -/
theorem sameResult_arithmetic (ha : SameNumber a a') (hb : SameNumber b b')
    (onInts : Int → Int → Int) (onFloats : Float → Float → Float) :
    SameResult (arithmetic op onInts onFloats a b) (arithmetic op onInts onFloats a' b') := by
  intro result
  unfold arithmetic
  rw [ha.1, ha.2, hb.1, hb.2]
  cases a'.integer? <;> cases b'.integer? <;> cases a'.number? <;> cases b'.number? <;> simp

theorem sameResult_div (ha : SameNumber a a') (hb : SameNumber b b') :
    SameResult (div a b) (div a' b') := by
  intro result
  unfold div
  rw [ha.2, hb.2]
  cases a'.number? <;> cases b'.number? <;> simp

theorem sameResult_numerically (op : ArithOp) (ha : SameNumber a a') (hb : SameNumber b b') :
    SameResult (numerically op a b) (numerically op a' b') := by
  cases op with
  | add | sub | mul => exact sameResult_arithmetic ha hb _ _
  | div => exact sameResult_div ha hb

/-- A number is only taken for a count in a product with a string or a list. -/
theorem arithValues_number_left (ha : a.number? = some x) (hop : op = .mul → ¬b.IsSequence) :
    Expr.arithValues op a b = numerically op a b := by
  cases op with
  | add => cases a <;> cases ha <;> rfl
  | sub | div => rfl
  | mul =>
    have hb := hop rfl
    cases a <;> cases ha <;> cases b <;> first | rfl | simp [IsSequence, kind] at hb

theorem arithValues_number_right (hb : b.number? = some x) (hop : op = .mul → ¬a.IsSequence) :
    Expr.arithValues op a b = numerically op a b := by
  cases op with
  | add => cases a <;> cases b <;> cases hb <;> rfl
  | sub | div => rfl
  | mul =>
    have ha := hop rfl
    cases b <;> cases hb <;> cases a <;> first | rfl | simp [IsSequence, kind] at ha

/-! ## Equality and order -/

theorem equal_congr (h : a.number? = some x) (h' : a'.number? = some x) (v : Value) :
    a.equal v = a'.equal v := by
  rw [Bool.eq_iff_iff, equal_number_iff h, equal_number_iff h']

theorem sameResult_compare (h : a.number? = some x) (h' : a'.number? = some x) (v : Value) :
    SameResult (a.compare v) (a'.compare v) := by
  intro order
  rw [compare_number_iff h, compare_number_iff h']

/-! ## Truth values -/

/-- A truth value and its integer have the same results under an operator, on either side of
another operand. -/
def AgreeUnder (op : ArithOp) (b : Bool) (v : Value) : Prop :=
  SameResult (Expr.arithValues op (.bool b) v) (Expr.arithValues op (.int (ofTruth b)) v) ∧
    SameResult (Expr.arithValues op v (.bool b)) (Expr.arithValues op v (.int (ofTruth b)))

/-- A truth value stands for its integer beside another operand: in every operation that has a
result for one of the two the other one has the same result. -/
structure CountsAsInteger (b : Bool) (v : Value) : Prop where
  arithmetic : ∀ op, AgreeUnder op b v
  negation : SameResult (neg (.bool b)) (neg (.int (ofTruth b)))
  equality : (bool b).equal v = (int (ofTruth b)).equal v ∧
    v.equal (.bool b) = v.equal (.int (ofTruth b))
  order : SameResult ((bool b).compare v) ((int (ofTruth b)).compare v) ∧
    SameResult (v.compare (.bool b)) (v.compare (.int (ofTruth b)))

theorem agreeUnder_of_numbers (b : Bool) (hop : op = .mul → ¬v.IsSequence) :
    AgreeUnder op b v := by
  have hsame := sameNumber_truth b
  constructor
  · rw [arithValues_number_left rfl hop, arithValues_number_left rfl hop]
    exact sameResult_numerically op hsame (.refl v)
  · rw [arithValues_number_right rfl hop, arithValues_number_right rfl hop]
    exact sameResult_numerically op (.refl v) hsame

/-- Nothing is repeated as often as a truth value says. -/
theorem mul_truth (b : Bool) (h : v.IsSequence) :
    (bool b).mul v = .error (.badOperands .mul .bool v.kind) ∧
      v.mul (.bool b) = .error (.badOperands .mul v.kind .bool) := by
  cases v <;> first | exact ⟨rfl, rfl⟩ | simp [IsSequence, kind] at h

/-- A product with a count has a result if it is no longer than it may be. -/
theorem exists_mul_int_iff (h : v.IsSequence) (n : Int64) :
    (∃ product, v.mul (.int n) = .ok product) ↔ v.units * n.toInt.toNat ≤ maxRepeatLength := by
  have hrepeatable {what : Repeated} (hv : RepeatedAs v what) :
      (∃ product, v.mul (.int n) = .ok product) ↔ v.units * n.toInt.toNat ≤ maxRepeatLength := by
    rw [mul_int hv]
    split
    · next hbound => exact iff_of_true ⟨_, rfl⟩ hbound
    · next hbound => exact iff_of_false nofun hbound
  cases v with
  | str s => exact hrepeatable (.str s)
  | list items =>
    cases items with
    | nil => exact iff_of_true ⟨.list [], rfl⟩ (by simp [units])
    | cons item items => exact hrepeatable (.list (List.cons_ne_nil item items))
  | _ => simp [IsSequence, kind] at h

theorem sameResult_neg_truth (b : Bool) : SameResult (neg (.bool b)) (neg (.int (ofTruth b))) :=
  fun _ => Iff.rfl

theorem equal_truth (b : Bool) (v : Value) :
    (bool b).equal v = (int (ofTruth b)).equal v ∧
      v.equal (.bool b) = v.equal (.int (ofTruth b)) := by
  have hleft : (bool b).equal v = (int (ofTruth b)).equal v := equal_congr rfl rfl v
  refine ⟨hleft, ?_⟩
  rw [equal_comm v, equal_comm v, hleft]

theorem sameResult_compare_truth (b : Bool) (v : Value) :
    SameResult ((bool b).compare v) ((int (ofTruth b)).compare v) ∧
      SameResult (v.compare (.bool b)) (v.compare (.int (ofTruth b))) := by
  have hleft : SameResult ((bool b).compare v) ((int (ofTruth b)).compare v) :=
    sameResult_compare rfl rfl v
  refine ⟨hleft, fun order => ?_⟩
  rw [compare_swap_iff, hleft, ← compare_swap_iff]

/-- Where the product with the integer is too long, the truth value cannot be told from it. -/
theorem agreeUnder_mul_of_long (hv : v.IsSequence) {b : Bool}
    (hlong : maxRepeatLength < v.units * (ofTruth b).toInt.toNat) : AgreeUnder .mul b v := by
  have hfails (product : Value) : v.mul (.int (ofTruth b)) ≠ .ok product := by
    intro hproduct
    have hbound := (exists_mul_int_iff hv (ofTruth b)).mp ⟨product, hproduct⟩
    omega
  obtain ⟨hleft, hright⟩ := mul_truth b hv
  constructor
  · intro product
    simp only [Expr.arithValues, hleft, int_mul hv, hfails, reduceCtorEq]
  · intro product
    simp only [Expr.arithValues, hright, hfails, reduceCtorEq]

/-- A truth value stands for its integer beside a string or a list only if both products fail. -/
theorem countsAsInteger_iff (b : Bool) (v : Value) :
    CountsAsInteger b v ↔
      (v.IsSequence → maxRepeatLength < v.units * (ofTruth b).toInt.toNat) := by
  constructor
  · intro h hv
    by_contra hbound
    obtain ⟨product, hproduct⟩ := (exists_mul_int_iff hv (ofTruth b)).mpr (by omega)
    have htruth := ((h.arithmetic .mul).2 product).mpr hproduct
    cases (mul_truth b hv).2.symm.trans htruth
  · intro h
    refine ⟨fun op => ?_, sameResult_neg_truth b, equal_truth b v, sameResult_compare_truth b v⟩
    by_cases hv : v.IsSequence
    · by_cases hop : op = .mul
      · subst hop
        exact agreeUnder_mul_of_long hv (h hv)
      · exact agreeUnder_of_numbers b fun hmul => absurd hmul hop
    · exact agreeUnder_of_numbers b fun _ => hv

/-- A truth value counts as one or zero under every arithmetic operator, on either side, but in a
product with a string or a list; it does so under unary minus, in equality and in order, with every
other operand. A product of a string or a list with a truth value always fails. So the truth value
stands for its integer unless it is beside a string or a list that its integer repeats: beside a
string or a list, it does so only if it is true and the product with one is too long. -/
theorem truth_counts_but_for_repetition (b : Bool) (v : Value) :
    (∀ op : ArithOp, (op = .mul → ¬v.IsSequence) → AgreeUnder op b v) ∧
    SameResult (neg (.bool b)) (neg (.int (ofTruth b))) ∧
    ((bool b).equal v = (int (ofTruth b)).equal v ∧
      v.equal (.bool b) = v.equal (.int (ofTruth b))) ∧
    (SameResult ((bool b).compare v) ((int (ofTruth b)).compare v) ∧
      SameResult (v.compare (.bool b)) (v.compare (.int (ofTruth b)))) ∧
    (v.IsSequence →
      (bool b).mul v = .error (.badOperands .mul .bool v.kind) ∧
        v.mul (.bool b) = .error (.badOperands .mul v.kind .bool)) ∧
    (CountsAsInteger b v ↔ (v.IsSequence → b = true ∧ 1048576 < v.units)) := by
  refine ⟨fun op => agreeUnder_of_numbers b, sameResult_neg_truth b, equal_truth b v,
    sameResult_compare_truth b v, mul_truth b,
    (countsAsInteger_iff b v).trans (forall_congr' fun _ => ?_)⟩
  cases b with
  | false => exact iff_of_false (Nat.not_lt_zero _) fun h => Bool.noConfusion h.1
  | true =>
    have hone : (ofTruth true).toInt.toNat = 1 := by decide
    have hbound : maxRepeatLength = 1048576 := rfl
    rw [hone, hbound, Nat.mul_one]
    exact (and_iff_right rfl).symm

/-- Beside a double true counts as one, and beside the empty list false does not count as zero. -/
theorem truth_counts_but_for_repetition_of_empty_list :
    AgreeUnder .mul true (.float 2.5) ∧ CountsAsInteger true (.float 2.5) ∧
      (bool false).mul (.list []) = .error (.badOperands .mul .bool .list) ∧
      ¬CountsAsInteger false (.list []) := by
  obtain ⟨harithmetic, -, -, -, -, hcounts⟩ := truth_counts_but_for_repetition true (.float 2.5)
  obtain ⟨-, -, -, -, hfails, hcountsNot⟩ := truth_counts_but_for_repetition false (.list [])
  have hnumber : ¬IsSequence (.float 2.5) := by simp [IsSequence, kind]
  have hlist : IsSequence (.list []) := .inr rfl
  refine ⟨harithmetic .mul fun _ => hnumber, hcounts.mpr fun h => absurd h hnumber,
    (hfails hlist).1, fun h => ?_⟩
  exact Bool.noConfusion (hcountsNot.mp h hlist).1

/-- A string times one is the string, and a string times true has no result. -/
theorem not_countsAsInteger_of_repetition :
    (str "ab").mul (.int 1) = .ok (.str "ab") ∧
      (str "ab").mul (.bool true) = .error (.badOperands .mul .str .bool) ∧
      ¬CountsAsInteger true (.str "ab") := by
  have hint : (str "ab").mul (.int 1) = .ok (.str "ab") := by
    rw [mul_int (.str "ab"), if_pos (by decide)]
    rfl
  refine ⟨hint, rfl, fun h => ?_⟩
  have htruth := ((h.arithmetic .mul).2 (.str "ab")).mpr hint
  cases htruth

end CorpusQuery.Value
