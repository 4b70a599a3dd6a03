import CorpusQuery.Proofs.Expr.Regrouping
import Mathlib.Data.List.Forall2

/-!
# Membership by methods and by operators

The methods `contains`, `containsAny` and `isEmpty` of a property say the same as `in`, `in` and
`or`, and `!`. A method asks for the property first and for all of its arguments before it looks at
any, and an operator asks for its left side first. If the property and the arguments have values,
this makes no difference: both find the same, or fail with the same error
(`membership_methods_as_operators`).
-/

namespace CorpusQuery

open Document

namespace Expr

/-! ## Expressions of membership -/

/-- An argument as an expression. -/
def ofArg : Arg → Expr
  | .literal value => .literal value
  | .attr path => .attr path

/-- The expression `x in path`. -/
def isIn (path : List String) (x : Arg) : Expr := .compare .isIn (ofArg x) (.attr path)

/-- The expression `x not in path`. -/
def isNotIn (path : List String) (x : Arg) : Expr := .compare .notIn (ofArg x) (.attr path)

/-- The expression `first in path or x in path or …`; a chain of `or` is joined from the left. -/
def anyIsIn (path : List String) (first : Arg) (others : List Arg) : Expr :=
  others.foldl (fun e x => .or e (isIn path x)) (isIn path first)

/-- A truth value, or an evaluation error, as an outcome. -/
def truthOf (x : Except EvalError Bool) : Except Error Value := do
  let b ← liftEval x
  pure (.bool b)

/-! ## Values -/

/-- The values of a list are looked up in the values of its two parts, one after the other. -/
theorem containsAny_append (container : Value) (values others : List Value) :
    truthOf (containsAny container (values ++ others)) =
      eitherOf (truthOf (containsAny container values))
        (truthOf (containsAny container others)) := by
  induction values with
  | nil => rfl
  | cons value values ih =>
    rw [List.cons_append, containsAny, containsAny]
    cases container.contains value with
    | error e => rfl
    | ok found =>
      cases found with
      | true => rfl
      | false => exact ih

theorem containsAny_singleton (container value : Value) :
    containsAny container [value] = container.contains value := by
  rw [containsAny]
  cases container.contains value with
  | error e => rfl
  | ok found => cases found <;> rfl

/-- What has a length is empty if it counts as false. -/
theorem length_eq_zero_eq_not_isTruthy {value : Value} {n : Nat} (h : value.length = .ok n) :
    (n == 0) = !value.isTruthy := by
  cases value with
  | str s =>
    cases h
    rw [Value.isTruthy, Bool.not_not, Bool.eq_iff_iff, beq_iff_eq, String.length_eq_zero_iff,
      String.isEmpty_iff]
  | list items =>
    cases h
    cases items <;> rfl
  | map entries =>
    cases h
    cases entries <;> rfl
  | _ => cases h

/-! ## Outcomes -/

section Outcomes

variable {subject : Subject} {path : List String} {target : Value}

theorem evaluate_call (subject : Subject) (path : List String) (name : String) (args : List Arg) :
    subject.evaluate (.call path name args) = (do
      let target ← subject.evaluate (.attr path)
      let values ← args.mapM fun x => subject.evaluate (ofArg x)
      let result ← applyMethod subject.answers name target values
      pure (.bool result)) := by
  have harg (x : Arg) : subject.evaluate (ofArg x) = Arg.evaluate subject.answers x := by
    rw [subject.evaluate_eq]
    cases x <;> rfl
  simp only [harg]
  simp only [subject.evaluate_eq]
  rfl

/-- A method is applied to the values of the property and of the arguments. -/
theorem evaluate_call_of_values {name : String} {args : List Arg} {values : List Value}
    (htarget : subject.evaluate (.attr path) = .ok target)
    (hargs : List.Forall₂ (fun x value => subject.evaluate (ofArg x) = .ok value) args values) :
    subject.evaluate (.call path name args) = (do
      let result ← applyMethod subject.answers name target values
      pure (.bool result)) := by
  have hvalues : args.mapM (fun x => subject.evaluate (ofArg x)) = .ok values := by
    induction hargs with
    | nil => rfl
    | cons hfirst _ ih =>
      rw [List.mapM_cons, hfirst, ih]
      rfl
  rw [evaluate_call, htarget, hvalues]
  rfl

theorem evaluate_isIn {x : Arg} {value : Value}
    (htarget : subject.evaluate (.attr path) = .ok target)
    (hx : subject.evaluate (ofArg x) = .ok value) :
    subject.evaluate (isIn path x) = truthOf (target.contains value) := by
  rw [isIn, subject.evaluate_compare, hx, htarget]
  rfl

/-- Every further test of a chain looks up one more value. -/
theorem evaluate_foldl_isIn {args : List Arg} {values seen : List Value} {e : Expr}
    (htarget : subject.evaluate (.attr path) = .ok target)
    (hargs : List.Forall₂ (fun x value => subject.evaluate (ofArg x) = .ok value) args values)
    (he : subject.evaluate e = truthOf (containsAny target seen)) :
    subject.evaluate (args.foldl (fun e x => .or e (isIn path x)) e) =
      truthOf (containsAny target (seen ++ values)) := by
  induction hargs generalizing e seen with
  | nil => rw [List.foldl_nil, List.append_nil, he]
  | @cons x value args values hx _ ih =>
    have hnext : subject.evaluate (.or e (isIn path x)) =
        truthOf (containsAny target (seen ++ [value])) := by
      rw [evaluate_or, he, evaluate_isIn htarget hx, containsAny_append, containsAny_singleton]
    rw [List.foldl_cons, ih hnext, List.append_assoc, List.singleton_append]

theorem exists_values {args : List Arg}
    (h : ∀ x ∈ args, ∃ value, subject.evaluate (ofArg x) = .ok value) :
    ∃ values, List.Forall₂ (fun x value => subject.evaluate (ofArg x) = .ok value) args values := by
  induction args with
  | nil => exact ⟨[], .nil⟩
  | cons x args ih =>
    obtain ⟨value, hvalue⟩ := h x List.mem_cons_self
    obtain ⟨values, hvalues⟩ := ih fun y hy => h y (List.mem_cons_of_mem x hy)
    exact ⟨value :: values, .cons hvalue hvalues⟩

theorem evaluate_contains {x : Arg} (htarget : subject.evaluate (.attr path) = .ok target)
    (hx : ∃ value, subject.evaluate (ofArg x) = .ok value) :
    subject.evaluate (.call path "contains" [x]) = subject.evaluate (isIn path x) := by
  obtain ⟨value, hvalue⟩ := hx
  rw [evaluate_call_of_values htarget (.cons hvalue .nil), evaluate_isIn htarget hvalue]
  rfl

theorem evaluate_containsAny {first : Arg} {others : List Arg}
    (htarget : subject.evaluate (.attr path) = .ok target)
    (hargs : ∀ x ∈ first :: others, ∃ value, subject.evaluate (ofArg x) = .ok value) :
    subject.evaluate (.call path "containsAny" (first :: others)) =
      subject.evaluate (anyIsIn path first others) := by
  obtain ⟨values, hvalues⟩ := exists_values hargs
  rw [evaluate_call_of_values htarget hvalues]
  cases hvalues with
  | @cons _ value _ values hfirst hothers =>
    have htest : subject.evaluate (isIn path first) = truthOf (containsAny target [value]) := by
      rw [evaluate_isIn htarget hfirst, containsAny_singleton]
    rw [anyIsIn, evaluate_foldl_isIn htarget hothers htest]
    rfl

theorem evaluate_isNotIn (subject : Subject) (path : List String) (x : Arg) :
    subject.evaluate (isNotIn path x) = oppositeOf (subject.evaluate (isIn path x)) := by
  rw [isNotIn, isIn, subject.evaluate_compare, subject.evaluate_compare]
  cases subject.evaluate (ofArg x) with
  | error e => rfl
  | ok value =>
    cases subject.evaluate (.attr path) with
    | error e => rfl
    | ok target =>
      change truthOf ((target.contains value).map (!·)) =
        oppositeOf (truthOf (target.contains value))
      cases target.contains value <;> rfl

theorem oppositeOf_eq_error_iff {x : Except Error Value} {e : Error} :
    oppositeOf x = .error e ↔ x = .error e := by
  cases x with
  | error e' => exact Iff.rfl
  | ok value => exact iff_of_false nofun nofun

theorem evaluate_isEmpty (htarget : subject.evaluate (.attr path) = .ok target) :
    subject.evaluate (.call path "isEmpty" []) = truthOf (target.length.map (· == 0)) := by
  rw [evaluate_call_of_values htarget .nil]
  rfl

end Outcomes

/-- For a property that has a value `contains` is `in`, and `containsAny` is a chain of `in` and
`or`, if the arguments have values too, with the same errors; `not in` is `!` of `in` and fails as
`in` does; and `isEmpty` is `!` wherever it is defined, which is on what has a length. -/
theorem membership_methods_as_operators (subject : Subject) (path : List String) {target : Value}
    (htarget : subject.evaluate (.attr path) = .ok target) :
    (∀ x : Arg, (∃ value, subject.evaluate (ofArg x) = .ok value) →
      subject.evaluate (.call path "contains" [x]) = subject.evaluate (isIn path x)) ∧
    (∀ (first : Arg) (others : List Arg),
      (∀ x ∈ first :: others, ∃ value, subject.evaluate (ofArg x) = .ok value) →
        subject.evaluate (.call path "containsAny" (first :: others)) =
          subject.evaluate (anyIsIn path first others)) ∧
    (∀ x : Arg, subject.evaluate (isNotIn path x) = subject.evaluate (.not (isIn path x)) ∧
      ∀ e, subject.evaluate (isNotIn path x) = .error e ↔
        subject.evaluate (isIn path x) = .error e) ∧
    (∀ value, subject.evaluate (.call path "isEmpty" []) = .ok value →
      subject.evaluate (.not (.attr path)) = .ok value) ∧
    ((∃ value, subject.evaluate (.call path "isEmpty" []) = .ok value) ↔
      target.kind = .str ∨ target.kind = .list ∨ target.kind = .map) := by
  refine ⟨fun x => evaluate_contains htarget, fun first others => evaluate_containsAny htarget,
    fun x => ⟨?notIn, fun e => ?fails⟩, fun value hvalue => ?isEmpty, ?isDefined⟩
  case notIn => rw [evaluate_isNotIn, evaluate_not]
  case fails => rw [evaluate_isNotIn, oppositeOf_eq_error_iff]
  case isEmpty =>
    rw [evaluate_isEmpty htarget] at hvalue
    rw [evaluate_not, htarget, oppositeOf_ok]
    cases hlength : target.length with
    | error e =>
      rw [hlength] at hvalue
      cases hvalue
    | ok n =>
      rw [hlength] at hvalue
      rw [← hvalue, ← length_eq_zero_eq_not_isTruthy hlength]
      rfl
  case isDefined =>
    rw [evaluate_isEmpty htarget]
    cases target with
    | str => exact iff_of_true ⟨_, rfl⟩ (.inl rfl)
    | list => exact iff_of_true ⟨_, rfl⟩ (.inr (.inl rfl))
    | map => exact iff_of_true ⟨_, rfl⟩ (.inr (.inr rfl))
    | _ => exact iff_of_false nofun nofun

/-- In the name of a file a text that it does not have comes out as false, and a number after it is
an error, by the method as by the operators; a text that it has in front of the number decides. -/
theorem membership_methods_as_operators_of_name :
    let subject : Subject := .document Visit.rated
    let name := ["file", "name"]
    let failing (first : String) : List Arg := [.literal (.str first), .attr ["stars"]]
    subject.evaluate (.call name "containsAny" (failing "z")) =
        .error (.eval (.needleNotText .int)) ∧
      subject.evaluate (anyIsIn name (.literal (.str "z")) [.attr ["stars"]]) =
        .error (.eval (.needleNotText .int)) ∧
      subject.evaluate (.call name "containsAny" (failing "a.")) = .ok (.bool true) ∧
      subject.evaluate (anyIsIn name (.literal (.str "a.")) [.attr ["stars"]]) =
        .ok (.bool true) ∧
      subject.evaluate (.not (.attr name)) = .ok (.bool false) := by
  intro subject name failing
  have hname : subject.evaluate (.attr name) = .ok (.str "a.md") := rfl
  have hstars : subject.evaluate (.attr ["stars"]) = .ok (.int 5) := rfl
  have hargs (first : String) (x : Arg) (hx : x ∈ failing first) :
      ∃ value, subject.evaluate (ofArg x) = .ok value := by
    simp only [failing, List.mem_cons, List.not_mem_nil, or_false] at hx
    rcases hx with rfl | rfl
    · exact ⟨_, rfl⟩
    · exact ⟨_, hstars⟩
  obtain ⟨-, hany, -, hempty, -⟩ := membership_methods_as_operators subject name hname
  have hmissing : subject.evaluate (.call name "containsAny" (failing "z")) =
      .error (.eval (.needleNotText .int)) := rfl
  have hfound : subject.evaluate (.call name "containsAny" (failing "a.")) = .ok (.bool true) :=
    rfl
  refine ⟨hmissing, ?_, hfound, ?_, hempty _ rfl⟩
  · exact (hany _ _ (hargs "z")).symm.trans hmissing
  · exact (hany _ _ (hargs "a.")).symm.trans hfound

end Expr

end CorpusQuery
