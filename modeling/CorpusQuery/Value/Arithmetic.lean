import CorpusQuery.Value.Error

/-!
# Arithmetic on values

Truth values count as the integers zero and one. Two integers give an exact integer or fail; any
other two numbers give a double. Strings and lists can be added and repeated.
-/

namespace CorpusQuery.Value

/-- The greatest length of a repeated string, in bytes, or of a repeated list, in elements. -/
def maxRepeatLength : Nat := 1048576

/-- The integer as a 64 bit integer, if it is one. -/
def int64? (n : Int) : Option Int64 :=
  if Int64.minValue.toInt ≤ n ∧ n ≤ Int64.maxValue.toInt then some (Int64.ofInt n) else none

theorem int64?_eq_some_iff {n : Int} {i : Int64} : int64? n = some i ↔ i.toInt = n := by
  constructor
  · intro h
    unfold int64? at h
    split at h
    · next hrange =>
      obtain rfl := Option.some.inj h
      have hmax : Int64.maxValue.toInt = 2 ^ 63 - 1 := rfl
      exact Int64.toInt_ofInt_of_le hrange.1 (by omega)
    · cases h
  · intro h
    subst h
    rw [int64?, if_pos ⟨i.minValue_le_toInt, i.toInt_le⟩, Int64.ofInt_toInt]

/-- An exact integer result; it fails outside of 64 bits. -/
def exact (n : Int) : Except EvalError Value :=
  match int64? n with
  | some i => .ok (.int i)
  | none => .error .integerOverflow

theorem exact_eq_ok_iff {n : Int} {v : Value} :
    exact n = .ok v ↔ ∃ i : Int64, i.toInt = n ∧ v = .int i := by
  unfold exact
  constructor
  · intro h
    split at h
    · next i hi => exact ⟨i, int64?_eq_some_iff.mp hi, (Except.ok.inj h).symm⟩
    · cases h
  · intro ⟨i, hi, hv⟩
    rw [int64?_eq_some_iff.mpr hi, hv]

/-- Applies an operator to two integers exactly, or to two numbers as doubles. -/
def arithmetic (op : ArithOp) (onInts : Int → Int → Int) (onFloats : Float → Float → Float)
    (a b : Value) : Except EvalError Value :=
  match a.integer?, b.integer? with
  | some i, some j => exact (onInts i.toInt j.toInt)
  | _, _ =>
    match a.number?, b.number? with
    | some x, some y => .ok (.float (onFloats x y))
    | _, _ => .error (.badOperands op a.kind b.kind)

/-- The sum; strings and lists are appended. -/
def add : Value → Value → Except EvalError Value
  | .str a, .str b => .ok (.str (a ++ b))
  | .list xs, .list ys => .ok (.list (xs ++ ys))
  | a, b => arithmetic .add (· + ·) (· + ·) a b

/-- The difference. -/
def sub (a b : Value) : Except EvalError Value :=
  arithmetic .sub (· - ·) (· - ·) a b

/-- The number as a size of 64 bits, if it is one. -/
def size64? (n : Nat) : Option UInt64 :=
  if n < UInt64.size then some (UInt64.ofNat n) else none

/-- How often something of the given length is repeated for a count of `n`: not at all for a
negative count or if it is empty. It fails if the length of the result is no size or greater than
`maxRepeatLength`. -/
def repeatCount (what : Repeated) (length : Nat) (n : Int64) : Except EvalError Nat :=
  let times := if length = 0 then 0 else n.toInt.toNat
  match size64? (length * times) with
  | some total =>
    if total.toNat ≤ maxRepeatLength then .ok times else .error (.repetitionTooLong what)
  | none => .error (.repetitionTooLong what)

/-- The string, `n` times. -/
def repeatString (s : String) (n : Int64) : Except EvalError Value :=
  (repeatCount .string s.utf8ByteSize n).map fun times =>
    .str (String.join (List.replicate times s))

/-- The list, `n` times. -/
def repeatList (items : List Value) (n : Int64) : Except EvalError Value :=
  (repeatCount .list items.length n).map fun times => .list (List.replicate times items).flatten

/-- The product; a string or a list is repeated. -/
def mul : Value → Value → Except EvalError Value
  | .str s, .int n => repeatString s n
  | .int n, .str s => repeatString s n
  | .list items, .int n => repeatList items n
  | .int n, .list items => repeatList items n
  | a, b => arithmetic .mul (· * ·) (· * ·) a b

/-- The quotient, always a double. -/
def div (a b : Value) : Except EvalError Value :=
  match a.number?, b.number? with
  | some x, some y => if y == 0 then .error .divisionByZero else .ok (.float (x / y))
  | _, _ => .error (.badOperands .div a.kind b.kind)

/-- The negative. -/
def neg : Value → Except EvalError Value
  | .int i => exact (-i.toInt)
  | .float x => .ok (.float (-x))
  | .bool b => exact (-(ofTruth b).toInt)
  | other => .error (.badNegation other.kind)

end CorpusQuery.Value
