import CorpusQuery.Decimal.Read

/-!
# Plain scalars

What a scalar without quotes stands for: nothing, a truth value, an integer, a double or a string.
Integers are decimal without leading zeros, or hexadecimal, octal or binary after `0x`, `0o` or
`0b`.
-/

namespace CorpusQuery.Yaml

/-- What a plain scalar stands for. An integer is between `-2 ^ 63` and `2 ^ 64 - 1`. -/
inductive Plain where
  | null
  | bool (b : Bool)
  | int (n : Int)
  | float (x : Float)
  | str (s : String)

namespace Plain

/-- The spellings of nothing, apart from the empty one. -/
def isNull (s : String) : Bool := s == "null" || s == "Null" || s == "NULL" || s == "~"

/-- The truth value a text spells. -/
def bool? (s : String) : Option Bool :=
  if s == "true" || s == "True" || s == "TRUE" then some true
  else if s == "false" || s == "False" || s == "FALSE" then some false
  else none

/-- The value of a digit in some base up to 36. -/
def digit? (base : Nat) (c : Char) : Option Nat :=
  let n :=
    if c.isDigit then c.toNat - '0'.toNat
    else if 'a' ≤ c && c ≤ 'z' then c.toNat - 'a'.toNat + 10
    else if 'A' ≤ c && c ≤ 'Z' then c.toNat - 'A'.toNat + 10
    else base
  if n < base then some n else none

/-- The number that digits stand for; there has to be one at least. -/
def digits? (base : Nat) (s : List Char) : Option Nat :=
  if s.isEmpty then none
  else s.foldl (fun n? c => do some (base * (← n?) + (← digit? base c))) (some 0)

/-- Whether a text has the digits of a decimal integer, after an optional sign, but begins with a
zero that is not its only digit. Such a text is a string. -/
def hasLeadingZero (s : List Char) : Bool :=
  let digits := match s with
    | '-' :: rest => rest
    | '+' :: rest => rest
    | rest => rest
  match digits with
  | '0' :: d :: rest => (d :: rest).all Char.isDigit
  | _ => false

/-- The integer without its sign that a text stands for, in one of the four bases. -/
def magnitude? (s : List Char) : Option Nat :=
  match s with
  | '0' :: 'x' :: rest => digits? 16 rest
  | '0' :: 'o' :: rest => digits? 8 rest
  | '0' :: 'b' :: rest => digits? 2 rest
  | rest => if hasLeadingZero rest then none else digits? 10 rest

/-- The natural number that a text stands for, of any size. It may have a plus sign. -/
def natural? (s : List Char) : Option Nat :=
  match s with
  | '+' :: rest => magnitude? rest
  | rest => magnitude? rest

/-- The integer that a text stands for, of any size. -/
def integer? (s : List Char) : Option Int :=
  match s with
  | '-' :: rest => (magnitude? rest).map fun n => -(n : Int)
  | rest => (natural? rest).map Int.ofNat

/-- Whether a double is finite. -/
def isFinite (x : Float) : Bool := !(x.isNaN || x.isInf)

/-- The double that a text stands for. Infinities and what is not a number are written with a point;
a decimal too large for a double is a string. -/
def float? (s : String) : Option Float :=
  if s == ".inf" || s == ".Inf" || s == ".INF" || s == "+.inf" || s == "+.Inf" || s == "+.INF" then
    some (1 / 0)
  else if s == "-.inf" || s == "-.Inf" || s == "-.INF" then some (-1 / 0)
  else if s == ".nan" || s == ".NaN" || s == ".NAN" then some (0 / 0)
  else (Decimal.readFloat? s.toList).filter isFinite

/-- How a text reads as an integer: it fits in 64 bits, it does not but fits in 128 bits, or it is
no integer at all. -/
inductive Integer where
  | fits (n : Int)
  | tooLarge
  | none

/-- Reads a text as an integer. What does not even fit in 128 bits is none. -/
def readInteger (s : String) : Integer :=
  match integer? s.toList with
  | .none => .none
  | some n =>
    if -(Nat.pow 2 63 : Int) ≤ n ∧ n < Nat.pow 2 64 then .fits n
    else if -(Nat.pow 2 127 : Int) ≤ n ∧ n < Nat.pow 2 128 then .tooLarge
    else .none

/-- What a plain scalar stands for; there is nothing for an integer that is too large. -/
def ofText? (s : String) : Option Plain :=
  if s.isEmpty || isNull s then some .null
  else
    match bool? s with
    | some b => some (.bool b)
    | none =>
      match readInteger s with
      | .fits n => some (.int n)
      | .tooLarge => none
      | .none =>
        if hasLeadingZero s.toList then some (.str s)
        else
          match float? s with
          | some x => some (.float x)
          | none => some (.str s)

end Plain

end CorpusQuery.Yaml
