/-!
# Reading numbers

`readFloat?` reads a double from decimal text: an optional sign, then `inf`, `infinity` or `nan` in
any case, or digits with an optional point among them, one digit at least, and an optional exponent.
The double is the one nearest to the number written.
-/

namespace CorpusQuery.Decimal

/-- The number that a row of digits stands for, after the digits of `start`. -/
def natOfDigits (start : Nat) (digits : List Char) : Nat :=
  digits.foldl (fun n c => 10 * n + (c.toNat - '0'.toNat)) start

/-- The double nearest to `digits · 10 ^ exponent`. Exponents outside of the range of doubles are
settled without computing the power. -/
def nearest (digits : Nat) (exponent : Int) : Float :=
  let lead := exponent + digits.repr.length
  if digits = 0 || lead < -400 then 0
  else if 400 < lead then Float.ofScientific 1 false 400
  else if exponent < 0 then Float.ofScientific digits true (-exponent).toNat
  else Float.ofScientific digits false exponent.toNat

/-- An exponent part: `e` or `E`, an optional sign and digits; nothing means zero. -/
def readExponent? : List Char → Option Int
  | [] => some 0
  | e :: rest =>
    if e = 'e' ∨ e = 'E' then
      let (negative, digits) :=
        match rest with
        | '-' :: digits => (true, digits)
        | '+' :: digits => (false, digits)
        | digits => (false, digits)
      if digits.isEmpty || !digits.all Char.isDigit then none
      else
        let n : Int := natOfDigits 0 digits
        some (if negative then -n else n)
    else none

/-- A number without a sign. -/
def readMagnitude? (s : List Char) : Option Float :=
  let word := s.map Char.toLower
  if word = "inf".toList ∨ word = "infinity".toList then some (Float.ofScientific 1 false 400)
  else if word = "nan".toList then some (0 / 0)
  else
    let whole := s.takeWhile Char.isDigit
    let (fraction, rest) :=
      match s.dropWhile Char.isDigit with
      | '.' :: rest => (rest.takeWhile Char.isDigit, rest.dropWhile Char.isDigit)
      | rest => ([], rest)
    if whole.isEmpty && fraction.isEmpty then none
    else
      (readExponent? rest).map fun exponent =>
        nearest (natOfDigits (natOfDigits 0 whole) fraction) (exponent - fraction.length)

/-- The double that a text stands for. -/
def readFloat? : List Char → Option Float
  | '-' :: s => (readMagnitude? s).map fun x => -x
  | '+' :: s => readMagnitude? s
  | s => readMagnitude? s

end CorpusQuery.Decimal
