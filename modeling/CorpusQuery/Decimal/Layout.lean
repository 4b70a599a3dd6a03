import CorpusQuery.Decimal.Shortest

/-!
# Written numbers

A `Layout` says how the digits of a decimal are set out: which numbers are written without an
exponent, which whole numbers get a `.0`, and what is written for infinities and for what is no
number. `Layout.write` writes a double by it, with the shortest digits that read back.
-/

namespace CorpusQuery.Decimal

/-- The rules by which a number is written. The exponent of a number is that of its first digit. -/
structure Layout where
  tie : Tie
  /-- Numbers with a smaller exponent are written with an exponent part. -/
  plainFrom : Option Int
  /-- Numbers with this exponent or a greater one are written with an exponent part. -/
  plainBelow : Option Int
  /-- Whole numbers with a smaller exponent end in `.0`. -/
  pointZeroBelow : Int
  nan : String
  infinity : String

/-- `n` zeros. -/
def zeros (n : Nat) : String := String.ofList (List.replicate n '0')

/-- The decimal in positional notation; a whole number gets a `.0` if `pointZero` is set. -/
def plain (d : Decimal) (pointZero : Bool) : String :=
  let digits := d.digits.repr
  if 0 ≤ d.exponent then
    digits ++ zeros d.exponent.toNat ++ if pointZero then ".0" else ""
  else
    let point := d.exponent + digits.length
    if 0 < point then
      String.ofList (digits.toList.take point.toNat) ++ "." ++
        String.ofList (digits.toList.drop point.toNat)
    else "0." ++ zeros (-point).toNat ++ digits

/-- The exponent of the decimal's first digit. -/
def lead (d : Decimal) : Int := d.exponent + d.digits.repr.length - 1

/-- The decimal with one digit before the point and a signed exponent. -/
def scientific (d : Decimal) : String :=
  let fraction := d.digits.repr.toList.drop 1
  String.ofList (d.digits.repr.toList.take 1) ++
    (if fraction.isEmpty then "" else "." ++ String.ofList fraction) ++
    (if d.lead < 0 then "e-" else "e+") ++ d.lead.natAbs.repr

/-- Whether numbers with this exponent are written without an exponent part. -/
def Layout.isPlain (l : Layout) (lead : Int) : Bool :=
  l.plainFrom.all (· ≤ lead) && l.plainBelow.all (lead < ·)

/-- The digits of a positive decimal, set out by the layout. -/
def Layout.writeDecimal (l : Layout) (d : Decimal) : String :=
  if l.isPlain d.lead then d.plain (d.lead < l.pointZeroBelow) else d.scientific

/-- A double, written by the layout. -/
def Layout.write (l : Layout) (x : Float) : String :=
  let signed (negative : Bool) (s : String) := if negative then "-" ++ s else s
  match classify x with
  | .nan => l.nan
  | .infinite negative => signed negative l.infinity
  | .zero negative => signed negative "0.0"
  | .finite negative b => signed negative (l.writeDecimal (b.shortest l.tie))

end CorpusQuery.Decimal
