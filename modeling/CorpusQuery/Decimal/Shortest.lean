/-!
# The shortest decimal of a binary number

`Binary.shortest` finds, for a positive number `m · 2 ^ q`, a decimal with as few digits as possible
among those that round back to the number, and of these the one nearest to it. The decimals with `n`
digits form a grid; the number's two neighbours on the grid are tried for `n = 1, 2, … 17`, in exact
integer arithmetic. Seventeen digits are always enough for a 53 bit `m`.
-/

namespace CorpusQuery

/-- The number `digits · 10 ^ exponent`. -/
structure Decimal where
  digits : Nat
  exponent : Int
  deriving Repr, DecidableEq

namespace Decimal

/-- Which of two equally near decimals is taken. -/
inductive Tie where
  | up
  | even
  deriving Repr, DecidableEq

/-- The positive binary number `mantissa · 2 ^ exponent`, and whether the gap to the number below it
is half as wide as the gap to the number above it. -/
structure Binary where
  mantissa : Nat
  exponent : Int
  narrowBelow : Bool
  deriving Repr, DecidableEq

/-- How often ten divides into `n` before nothing is left: the number of its decimal digits, and
`0` for `0`. -/
def digitCount (n : Nat) : Nat :=
  if n = 0 then 0 else digitCount (n / 10) + 1
termination_by n

/-- The exponent `e` with `10 ^ e ≤ top / bottom < 10 ^ (e + 1)`, for a positive quotient. -/
def leadingExponent (top bottom : Nat) : Int :=
  if bottom ≤ top then (digitCount (top / bottom) : Int) - 1
  else -(digitCount ((bottom - 1) / top) : Int)

/-- Ten to the power `k`, or `1` if `k` is negative. -/
def tenTo (k : Int) : Nat := Nat.pow 10 k.toNat

/-- The number and the two ends of the interval that rounds to it, over one denominator. -/
structure Interval where
  low : Nat
  value : Nat
  high : Nat
  denominator : Nat
  closed : Bool

/-- The interval that rounds to a binary number; its ends belong to it if the mantissa is even. -/
def Binary.interval (b : Binary) : Interval :=
  let scale := Nat.pow 2 (b.exponent - 2).toNat
  { low := (4 * b.mantissa - if b.narrowBelow then 1 else 2) * scale
    value := 4 * b.mantissa * scale
    high := (4 * b.mantissa + 2) * scale
    denominator := Nat.pow 2 (2 - b.exponent).toNat
    closed := b.mantissa % 2 = 0 }

/-- The nearer of the value's two neighbours on the grid of step `10 ^ k`, if one of them lies in
the interval. -/
def Interval.onGrid? (i : Interval) (tie : Tie) (k : Int) : Option Nat :=
  let up := tenTo (-k)
  let step := i.denominator * tenTo k
  let value := i.value * up
  let below := value / step
  let rest := value % step
  let lowFits := if i.closed then i.low * up ≤ below * step else i.low * up < below * step
  let highFits :=
    if i.closed then (below + 1) * step ≤ i.high * up else (below + 1) * step < i.high * up
  match decide lowFits, decide highFits with
  | true, false => some below
  | false, true => some (below + 1)
  | false, false => none
  | true, true =>
    if 2 * rest < step then some below
    else if step < 2 * rest then some (below + 1)
    else match tie with
      | .up => some (below + 1)
      | .even => some (if below % 2 = 0 then below else below + 1)

/-- The same number without zeros at the end of its digits. -/
def trim (d : Decimal) : Decimal :=
  if h : d.digits ≠ 0 ∧ d.digits % 10 = 0 then trim ⟨d.digits / 10, d.exponent + 1⟩ else d
termination_by d.digits
decreasing_by
  show d.digits / 10 < d.digits
  omega

/-- A decimal with the fewest digits among those that round to the number; of these the nearest. -/
def Binary.shortest (b : Binary) (tie : Tie) : Decimal :=
  let i := b.interval
  let lead := leadingExponent i.value i.denominator
  let found := (List.range 17).findSome? fun n : Nat =>
    let k := lead - (n : Int)
    (i.onGrid? tie k).map fun digits => Decimal.mk digits k
  (found.getD ⟨0, 0⟩).trim

/-- What a double precision number is: not a number, an infinity, a zero or a signed binary. -/
inductive Class where
  | nan
  | infinite (negative : Bool)
  | zero (negative : Bool)
  | finite (negative : Bool) (magnitude : Binary)
  deriving Repr, DecidableEq

/-- The class of a double, read off its sign bit, eleven exponent bits and 52 fraction bits. -/
def classify (x : Float) : Class :=
  let bits : Nat := x.toBits.toNat
  let negative : Bool := bits / Nat.pow 2 63 = 1
  let exponent : Nat := bits / Nat.pow 2 52 % Nat.pow 2 11
  let fraction : Nat := bits % Nat.pow 2 52
  if exponent = 2047 then if fraction = 0 then .infinite negative else .nan
  else if exponent = 0 then
    if fraction = 0 then .zero negative else .finite negative ⟨fraction, -1074, false⟩
  else
    .finite negative
      ⟨Nat.pow 2 52 + fraction, (exponent : Int) - 1075, decide (fraction = 0 ∧ 1 < exponent)⟩

end Decimal

end CorpusQuery
