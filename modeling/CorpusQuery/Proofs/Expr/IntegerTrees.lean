import CorpusQuery.Proofs.Expr.Subject

/-!
# Integer trees

A tree of unary minus, `+`, `-` and `*` over integers and truth values has an exact value. It is
evaluated with 64 bits at every node, and nothing wraps: the result is the exact value if the exact
value of every operation of the tree fits, and otherwise an overflow error, also where the outer
operations would lead back into the range (`integer_tree_exact_or_overflow`).
-/

namespace CorpusQuery

/-! ## Values as integers -/

/-- The integers that fit in 64 bits. -/
def FitsInt64 (n : Int) : Prop := Int64.minValue.toInt ≤ n ∧ n ≤ Int64.maxValue.toInt

/-- The integer that a value counts as: integers as themselves, the truth values as one and zero. -/
inductive Value.CountsAs : Value → Int → Prop
  | int (i : Int64) : CountsAs (.int i) i.toInt
  | true : CountsAs (.bool true) 1
  | false : CountsAs (.bool false) 0

/-- The exact operation on integers; a quotient is always a double. -/
def ArithOp.onIntegers? : ArithOp → Option (Int → Int → Int)
  | .add => some (· + ·)
  | .sub => some (· - ·)
  | .mul => some (· * ·)
  | .div => none

namespace Value

variable {value left right : Value} {m n : Int}

theorem CountsAs.unique (hm : value.CountsAs m) (hn : value.CountsAs n) : m = n := by
  cases hm <;> cases hn <;> rfl

theorem exact_of_fits (h : FitsInt64 n) : ∃ i : Int64, i.toInt = n ∧ exact n = .ok (.int i) := by
  rw [FitsInt64] at h
  have hsome : int64? n = some (Int64.ofInt n) := by rw [int64?, if_pos h]
  have hvalue := int64?_eq_some_iff.mp hsome
  exact ⟨_, hvalue, exact_eq_ok_iff.mpr ⟨_, hvalue, rfl⟩⟩

theorem exact_of_not_fits (h : ¬FitsInt64 n) : exact n = .error .integerOverflow := by
  rw [FitsInt64] at h
  rw [exact, int64?, if_neg h]

theorem CountsAs.neg_eq (h : value.CountsAs n) : value.neg = exact (-n) := by
  cases h <;> rfl

theorem CountsAs.arith_eq {op : ArithOp} {exactly : Int → Int → Int}
    (hop : op.onIntegers? = some exactly) (hleft : left.CountsAs m) (hright : right.CountsAs n) :
    Expr.arithValues op left right = exact (exactly m n) := by
  cases op <;> cases hop <;> cases hleft <;> cases hright <;> rfl

end Value

namespace Expr

/-! ## Exact values of trees -/

/-- The exact value of a tree of unary minus, `+`, `-` and `*` whose leaves, constants and
properties, are integers or truth values for the subject. -/
inductive ExactValue (subject : Subject) : Expr → Int → Prop
  | literal {value : Value} {n : Int} (h : value.CountsAs n) : ExactValue subject (.literal value) n
  | attr {path : List String} {value : Value} {n : Int}
    (hvalue : subject.evaluate (.attr path) = .ok value) (h : value.CountsAs n) :
    ExactValue subject (.attr path) n
  | neg {e : Expr} {n : Int} (h : ExactValue subject e n) : ExactValue subject (.neg e) (-n)
  | arith {op : ArithOp} {exactly : Int → Int → Int} {l r : Expr} {m n : Int}
    (hop : op.onIntegers? = some exactly) (hl : ExactValue subject l m)
    (hr : ExactValue subject r n) : ExactValue subject (.arith op l r) (exactly m n)

/-- The operations of such a tree: its nodes but for the leaves. -/
def operations : Expr → List Expr
  | .neg e => .neg e :: operations e
  | .arith op l r => .arith op l r :: (operations l ++ operations r)
  | _ => []

/-- The exact value of every operation of the tree fits in 64 bits. -/
def FitsThroughout (subject : Subject) (e : Expr) : Prop :=
  ∀ node ∈ e.operations, ∀ n, ExactValue subject node n → FitsInt64 n

variable {subject : Subject} {e l r : Expr} {m n : Int}

theorem ExactValue.unique (hm : ExactValue subject e m) (hn : ExactValue subject e n) : m = n := by
  induction hm generalizing n with
  | literal h =>
    cases hn with
    | literal h' => exact h.unique h'
  | attr hvalue h =>
    cases hn with
    | attr hvalue' h' =>
      cases hvalue.symm.trans hvalue'
      exact h.unique h'
  | neg _ ih =>
    cases hn with
    | neg h' => rw [ih h']
  | arith hop _ _ ihl ihr =>
    cases hn with
    | arith hop' hl' hr' =>
      cases hop.symm.trans hop'
      rw [ihl hl', ihr hr']

theorem fitsThroughout_of_leaf (h : e.operations = []) : FitsThroughout subject e := by
  intro node hnode
  rw [h] at hnode
  cases hnode

theorem fitsThroughout_neg_iff (h : ExactValue subject e n) :
    FitsThroughout subject (.neg e) ↔ FitsInt64 (-n) ∧ FitsThroughout subject e := by
  simp only [FitsThroughout, operations, List.forall_mem_cons]
  refine and_congr_left' ⟨fun hfits => hfits _ (.neg h), fun hfits m hm => ?_⟩
  rwa [hm.unique (.neg h)]

theorem fitsThroughout_arith_iff {op : ArithOp} {exactly : Int → Int → Int}
    (hop : op.onIntegers? = some exactly) (hl : ExactValue subject l m)
    (hr : ExactValue subject r n) :
    FitsThroughout subject (.arith op l r) ↔
      FitsInt64 (exactly m n) ∧ FitsThroughout subject l ∧ FitsThroughout subject r := by
  simp only [FitsThroughout, operations, List.forall_mem_cons, List.forall_mem_append]
  refine and_congr_left' ⟨fun hfits => hfits _ (.arith hop hl hr), fun hfits k hk => ?_⟩
  rwa [hk.unique (.arith hop hl hr)]

/-! ## Evaluation -/

/-- What comes of evaluating a tree whose exact value is `n`. -/
inductive Evaluated (subject : Subject) (e : Expr) (n : Int) : Prop
  | exact {value : Value} (hfits : FitsThroughout subject e)
    (hvalue : subject.evaluate e = .ok value) (h : value.CountsAs n)
    (hint : e.operations ≠ [] → ∃ i, value = .int i)
  | overflow (hfits : ¬FitsThroughout subject e)
    (herror : subject.evaluate e = .error (.eval .integerOverflow))

/-- An operation on evaluated operands fits and is exact, or overflows. -/
theorem Evaluated.of_operation (hfits : FitsThroughout subject e ↔ FitsInt64 n)
    (hvalue : subject.evaluate e = liftEval (Value.exact n)) : Evaluated subject e n := by
  by_cases h : FitsInt64 n
  · obtain ⟨i, rfl, hexact⟩ := Value.exact_of_fits h
    exact .exact (hfits.mpr h) (by rw [hvalue, hexact]; rfl) (.int i) fun _ => ⟨i, rfl⟩
  · exact .overflow (mt hfits.mp h) (by rw [hvalue, Value.exact_of_not_fits h]; rfl)

theorem ExactValue.evaluated (h : ExactValue subject e n) : Evaluated subject e n := by
  induction h with
  | @literal value n h =>
    have hvalue : subject.evaluate (.literal value) = .ok value := by
      rw [subject.evaluate_eq]
      rfl
    exact .exact (fitsThroughout_of_leaf rfl) hvalue h fun hne => absurd rfl hne
  | attr hvalue h =>
    exact .exact (fitsThroughout_of_leaf rfl) hvalue h fun hne => absurd rfl hne
  | @neg e n h ih =>
    have hfits := fitsThroughout_neg_iff h
    cases ih with
    | overflow hinner herror =>
      refine .overflow (fun hall => hinner (hfits.mp hall).2) ?_
      rw [subject.evaluate_neg, herror]
      rfl
    | exact hinner hvalue hcounts _ =>
      refine .of_operation (hfits.trans (and_iff_left hinner)) ?_
      rw [subject.evaluate_neg, hvalue, ← hcounts.neg_eq]
      rfl
  | @arith op exactly l r m n hop hl hr ihl ihr =>
    have hfits := fitsThroughout_arith_iff hop hl hr
    cases ihl with
    | overflow hleft herror =>
      refine .overflow (fun hall => hleft (hfits.mp hall).2.1) ?_
      rw [subject.evaluate_arith, herror]
      rfl
    | exact hleft hlvalue hlcounts _ =>
      cases ihr with
      | overflow hright herror =>
        refine .overflow (fun hall => hright (hfits.mp hall).2.2) ?_
        rw [subject.evaluate_arith, hlvalue, herror]
        rfl
      | exact hright hrvalue hrcounts _ =>
        refine .of_operation (hfits.trans (and_iff_left ⟨hleft, hright⟩)) ?_
        rw [subject.evaluate_arith, hlvalue, hrvalue, ← hlcounts.arith_eq hop hrcounts]
        rfl

/-- A tree of unary minus, `+`, `-` and `*` over integers and truth values evaluates to its exact
value if the exact value of every operation in it fits in 64 bits; a truth value alone stays what it
is. If one does not fit, the evaluation fails with an overflow. -/
theorem integer_tree_exact_or_overflow (h : ExactValue subject e n) :
    (FitsThroughout subject e →
      (∃ i : Int64, i.toInt = n ∧ subject.evaluate e = .ok (.int i)) ∨
        e.operations = [] ∧ ∃ b : Bool, (Value.bool b).CountsAs n ∧
          subject.evaluate e = .ok (.bool b)) ∧
    (¬FitsThroughout subject e →
      subject.evaluate e = .error (.eval .integerOverflow) ∧
        EvalError.integerOverflow.message = "integer overflow") := by
  cases h.evaluated with
  | overflow hfits herror => exact ⟨fun hall => absurd hall hfits, fun _ => ⟨herror, rfl⟩⟩
  | exact hfits hvalue hcounts hint =>
    refine ⟨fun _ => ?_, fun hall => absurd hfits hall⟩
    cases hcounts with
    | int i => exact .inl ⟨i, rfl, hvalue⟩
    | true | false =>
      refine .inr ⟨Decidable.not_not.mp fun hne => ?_, _, by constructor, hvalue⟩
      obtain ⟨i, hi⟩ := hint hne
      cases hi

end Expr

/-- The greatest integer under the name `top`; every other property is true. -/
def Subject.topOrTrue : Subject :=
  .stateless {
    property := fun path =>
      .ok (if path = ["top"] then .int Int64.maxValue else .bool true)
    tags := .ok [] }

/-- `-top - done` is the least integer and fits. `top + done - 1` is the greatest one, but the sum
in it overflows. -/
theorem Expr.integer_tree_exact_or_overflow_of_extremes :
    Subject.topOrTrue.evaluate
        (.arith .sub (.neg (.attr ["top"])) (.attr ["done"])) = .ok (.int Int64.minValue) ∧
      Subject.topOrTrue.evaluate
        (.arith .sub (.arith .add (.attr ["top"]) (.attr ["done"])) (.literal (.int 1))) =
          .error (.eval .integerOverflow) := by
  have htop : ExactValue .topOrTrue (.attr ["top"]) Int64.maxValue.toInt := .attr rfl (.int _)
  have hdone : ExactValue .topOrTrue (.attr ["done"]) 1 := .attr rfl .true
  have hmin : Int64.minValue.toInt = -2 ^ 63 := rfl
  have hmax : Int64.maxValue.toInt = 2 ^ 63 - 1 := rfl
  constructor
  · have hfits : FitsThroughout .topOrTrue
        (.arith .sub (.neg (.attr ["top"])) (.attr ["done"])) := by
      rw [fitsThroughout_arith_iff rfl (.neg htop) hdone, fitsThroughout_neg_iff htop]
      exact ⟨⟨by omega, by omega⟩, ⟨⟨by omega, by omega⟩, fitsThroughout_of_leaf rfl⟩,
        fitsThroughout_of_leaf rfl⟩
    rcases (integer_tree_exact_or_overflow (.arith rfl (.neg htop) hdone)).1 hfits with
      ⟨i, hi, hvalue⟩ | ⟨hleaf, -⟩
    · have hleast : i = Int64.minValue := Int64.toInt_inj.mp hi
      rw [hvalue, hleast]
    · cases hleaf
  · have hsum : ExactValue .topOrTrue (.arith .add (.attr ["top"]) (.attr ["done"]))
        (Int64.maxValue.toInt + 1) := .arith rfl htop hdone
    refine ((integer_tree_exact_or_overflow (.arith rfl hsum (.literal (.int 1)))).2 ?_).1
    intro hfits
    have hinner := hfits _ (List.mem_cons_of_mem _ List.mem_cons_self) _ hsum
    exact absurd hinner.2 (by omega)

end CorpusQuery
