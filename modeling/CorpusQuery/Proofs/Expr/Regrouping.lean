import CorpusQuery.Proofs.Expr.Subject

/-!
# Regrouping operands

`and` and `or` give the operand that decides and leave out what comes after it. So their outcomes,
values as well as errors, obey the laws by which operands are regrouped: both are associative, each
distributes over the other, and `!` turns one into the other. Expressions that differ by such a law
are interchangeable (`regroupings_interchangeable`).
-/

namespace CorpusQuery

namespace Expr

/-! ## Outcomes -/

section Outcomes

/-- An outcome is an error, or a value that counts as true or as false. -/
@[elab_as_elim]
theorem outcome_cases {P : Except Error Value → Prop} (error : ∀ e, P (.error e))
    (truthy : ∀ value, value.isTruthy = true → P (.ok value))
    (falsy : ∀ value, value.isTruthy = false → P (.ok value)) (x : Except Error Value) : P x := by
  cases x with
  | error e => exact error e
  | ok value =>
    cases h : value.isTruthy with
    | true => exact truthy value h
    | false => exact falsy value h

/-- The outcome of `and` on two outcomes. -/
def bothOf (x y : Except Error Value) : Except Error Value := do
  let value ← x
  if value.isTruthy then y else pure value

/-- The outcome of `or` on two outcomes. -/
def eitherOf (x y : Except Error Value) : Except Error Value := do
  let value ← x
  if value.isTruthy then pure value else y

/-- The outcome of `!` on an outcome. -/
def oppositeOf (x : Except Error Value) : Except Error Value := do
  let value ← x
  pure (.bool !value.isTruthy)

variable {value : Value} {e : Error} (x y z : Except Error Value)

@[simp] theorem bothOf_error : bothOf (.error e) y = .error e := rfl

@[simp] theorem eitherOf_error : eitherOf (.error e) y = .error e := rfl

@[simp] theorem oppositeOf_error : oppositeOf (.error e) = .error e := rfl

@[simp] theorem bothOf_ok : bothOf (.ok value) y = if value.isTruthy then y else .ok value := rfl

@[simp] theorem eitherOf_ok : eitherOf (.ok value) y = if value.isTruthy then .ok value else y :=
  rfl

@[simp] theorem oppositeOf_ok : oppositeOf (.ok value) = .ok (.bool !value.isTruthy) := rfl

@[simp] theorem isTruthy_bool (b : Bool) : (Value.bool b).isTruthy = b := rfl

/-! ## Laws of outcomes -/

theorem bothOf_assoc : bothOf (bothOf x y) z = bothOf x (bothOf y z) := by
  cases x using outcome_cases with
  | error e => rfl
  | truthy value h => simp [h]
  | falsy value h => simp [h]

theorem eitherOf_assoc : eitherOf (eitherOf x y) z = eitherOf x (eitherOf y z) := by
  cases x using outcome_cases with
  | error e => rfl
  | truthy value h => simp [h]
  | falsy value h => simp [h]

theorem oppositeOf_bothOf : oppositeOf (bothOf x y) = eitherOf (oppositeOf x) (oppositeOf y) := by
  cases x using outcome_cases with
  | error e => rfl
  | truthy value h => simp [h]
  | falsy value h => simp [h]

theorem oppositeOf_eitherOf : oppositeOf (eitherOf x y) = bothOf (oppositeOf x) (oppositeOf y) := by
  cases x using outcome_cases with
  | error e => rfl
  | truthy value h => simp [h]
  | falsy value h => simp [h]

/-- The first operand is asked twice on the right, but the second time only if it decides. -/
theorem bothOf_eitherOf : bothOf x (eitherOf y z) = eitherOf (bothOf x y) (bothOf x z) := by
  cases x using outcome_cases with
  | error e => rfl
  | truthy value h => simp [h]
  | falsy value h => simp [h]

theorem eitherOf_bothOf : eitherOf x (bothOf y z) = bothOf (eitherOf x y) (eitherOf x z) := by
  cases x using outcome_cases with
  | error e => rfl
  | truthy value h => simp [h]
  | falsy value h => simp [h]

end Outcomes

/-! ## Outcomes of expressions -/

section Operands

variable (subject : Subject) (a b : Expr)

theorem evaluate_and :
    subject.evaluate (.and a b) = bothOf (subject.evaluate a) (subject.evaluate b) := by
  simp only [Subject.evaluate_eq]
  rfl

theorem evaluate_or :
    subject.evaluate (.or a b) = eitherOf (subject.evaluate a) (subject.evaluate b) := by
  simp only [Subject.evaluate_eq]
  rfl

theorem evaluate_not : subject.evaluate (.not a) = oppositeOf (subject.evaluate a) := by
  simp only [Subject.evaluate_eq]
  rfl

end Operands

end Expr

open Job Document

/-- What a filter that compiles says of a document. -/
theorem FieldFilter.result_check {filter : FieldFilter} {e : Expr} (h : filter.compiled = .ok e)
    (visit : Visit) :
    visit.result (fun snapshot doc => filter.check snapshot doc) =
      match (Subject.document visit).check e with
      | .ok passed => .ok passed
      | .error problem =>
        if visit.snapshot.corpus.strictFields then .error problem else .ok true := by
  have hcheck : ((e.check (visit.doc.scope visit.snapshot)).run visit.read).result =
      (Subject.document visit).check e := rfl
  unfold Visit.result FieldFilter.check
  simp only [h, run_attempt_bind, hcheck]
  cases (Subject.document visit).check e with
  | ok passed => rfl
  | error problem => cases visit.snapshot.corpus.strictFields <;> rfl

namespace Expr

/-- Two expressions of which it makes no difference which one is written: they have the same value,
or fail with the same error, for every subject; they pass or fail alike; and so do two filters that
they are the expressions of, in a strict corpus as in one that is not. -/
structure Interchangeable (e f : Expr) : Prop where
  value : ∀ subject : Subject, subject.evaluate e = subject.evaluate f
  verdict : ∀ subject : Subject, subject.check e = subject.check f
  filter : ∀ (visit : Visit) (first second : FieldFilter), first.compiled = .ok e →
    second.compiled = .ok f →
      visit.result (fun snapshot doc => first.check snapshot doc) =
        visit.result fun snapshot doc => second.check snapshot doc

theorem Interchangeable.of_value {e f : Expr}
    (h : ∀ subject : Subject, subject.evaluate e = subject.evaluate f) : Interchangeable e f := by
  have hverdict (subject : Subject) : subject.check e = subject.check f := by
    rw [subject.check_eq, subject.check_eq, h]
  refine ⟨h, hverdict, fun visit first second hfirst hsecond => ?_⟩
  rw [FieldFilter.result_check hfirst, FieldFilter.result_check hsecond, hverdict]

/-- The operands of `and` and `or` can be regrouped: both are associative, each distributes over the
other, and `!` goes over to the operands and turns one into the other. Neither the value nor the
error changes, and so no verdict of a filter. -/
theorem regroupings_interchangeable (a b c : Expr) :
    Interchangeable ((a.and b).and c) (a.and (b.and c)) ∧
    Interchangeable ((a.or b).or c) (a.or (b.or c)) ∧
    Interchangeable (a.and b).not (a.not.or b.not) ∧
    Interchangeable (a.or b).not (a.not.and b.not) ∧
    Interchangeable (a.and (b.or c)) ((a.and b).or (a.and c)) ∧
    Interchangeable (a.or (b.and c)) ((a.or b).and (a.or c)) := by
  refine ⟨.of_value fun subject => ?_, .of_value fun subject => ?_, .of_value fun subject => ?_,
    .of_value fun subject => ?_, .of_value fun subject => ?_, .of_value fun subject => ?_⟩
  · simp only [evaluate_and, bothOf_assoc]
  · simp only [evaluate_or, eitherOf_assoc]
  · simp only [evaluate_and, evaluate_or, evaluate_not, oppositeOf_bothOf]
  · simp only [evaluate_and, evaluate_or, evaluate_not, oppositeOf_eitherOf]
  · simp only [evaluate_and, evaluate_or, bothOf_eitherOf]
  · simp only [evaluate_and, evaluate_or, eitherOf_bothOf]

end Expr

end CorpusQuery
