import CorpusQuery.Proofs.Value.Integers
import CorpusQuery.View.Order

/-!
# The places of integers among doubles

A column of numbers is sorted by the bits of doubles: the place of a double among all doubles is
read off its sign, its exponent and its digits. The places of the doubles of integers are in the
order of the integers that they are rounded to (`SortKey.compare_place_ofInt`).
-/

namespace CorpusQuery

/-! ## Bits -/

namespace Double

open Float.Model Float.Model.UnpackedFloat

/-- Whether `m`, of 53 digits the last of which counts `2 ^ (e - 52)`, is the number `n`. -/
structure Digits (m e n : Nat) : Prop where
  low : 2 ^ 52 ≤ m
  high : m < 2 ^ 53
  value : m * 2 ^ e = n * 2 ^ 52
  small : n ≤ 2 ^ 64

/-- The bits of a double, without the sign. -/
def magnitude (m e : Nat) : Nat := (e + 1023) * 2 ^ 52 + (m - 2 ^ 52)

theorem magnitude_pos (m e : Nat) : 0 < magnitude m e := by
  unfold magnitude
  omega

theorem toNat_unpackMantissa (b : BitVec Format.binary64.numBits) :
    (unpackMantissa b).toNat = b.toNat % 2 ^ 52 := by
  simp [unpackMantissa, BitVec.extractLsb_toNat]

theorem toNat_unpackExponent (b : BitVec Format.binary64.numBits) :
    (unpackExponent b).toNat = b.toNat / 2 ^ 52 % 2 ^ 11 := by
  simp [unpackExponent, BitVec.extractLsb_toNat, Nat.shiftRight_eq_div_pow]

theorem toNat_unpackSign (b : BitVec Format.binary64.numBits) :
    (unpackSign b).toNat = b.toNat / 2 ^ 63 % 2 := by
  simp [unpackSign, BitVec.extractLsb_toNat, Nat.shiftRight_eq_div_pow]

/-- The bit of a sign. -/
def signBit : Sign → Nat
  | .positive => 0
  | .negative => 1

theorem toNat_of_ofBitVec {b : BitVec 1} {sign : Sign} (h : Sign.ofBitVec b = sign) :
    b.toNat = signBit sign := by
  have hcases : b = 0#1 ∨ b = 1#1 := by
    have hlt := b.isLt
    rcases Nat.lt_or_ge b.toNat 1 with hzero | hone
    · exact .inl (BitVec.eq_of_toNat_eq (by simp; omega))
    · exact .inr (BitVec.eq_of_toNat_eq (by simp; omega))
  rcases hcases with rfl | rfl <;> subst h <;> rfl

/-- The bits of a double with 53 digits. -/
theorem toNat_of_unpack {b : BitVec Format.binary64.numBits} {sign : Sign} {m e n : Nat}
    {hpos : 0 < m} (hdigits : Digits m e n)
    (h : UnpackedFloat.unpack .binary64 b = .finite sign m ((e : Int) - 52) hpos) :
    b.toNat = signBit sign * 2 ^ 63 + magnitude m e := by
  have hlow := hdigits.low
  have hmantissa := toNat_unpackMantissa b
  have hexponent := toNat_unpackExponent b
  have hsign := toNat_unpackSign b
  have hwhole : b.toNat < 2 ^ 64 := b.isLt
  have hbias : Format.binary64.exponentBias = 1023 := rfl
  unfold UnpackedFloat.unpack at h
  dsimp only at h
  split at h
  · split at h <;> cases h
  · split at h
    · split at h
      · cases h
      · -- a double with fewer digits
        injection h with _ hm _
        omega
    · injection h with hs hm he
      rw [toNat_of_ofBitVec hs] at hsign
      have hfirst : (1#1 ++ unpackMantissa b).toNat = 2 ^ 52 + (unpackMantissa b).toNat := by
        rw [BitVec.toNat_append, ← Nat.shiftLeft_add_eq_or_of_lt (unpackMantissa b).isLt]
        rfl
      unfold magnitude
      omega

theorem Digits.exponent_le {m e n : Nat} (h : Digits m e n) : e ≤ 64 :=
  Double.exponent_le h.low h.value h.small

theorem Digits.pos {m e n : Nat} (h : Digits m e n) : 0 < n := by
  have hm : 0 < m := Nat.lt_of_lt_of_le (Nat.two_pow_pos 52) h.low
  exact pos_of_digits hm h.value

/-- Numbers with 53 digits are in the order of their bits: first the exponents count, and then the
digits. -/
theorem Digits.magnitude_lt_iff {m₁ e₁ n₁ m₂ e₂ n₂ : Nat} (h₁ : Digits m₁ e₁ n₁)
    (h₂ : Digits m₂ e₂ n₂) : magnitude m₁ e₁ < magnitude m₂ e₂ ↔ n₁ < n₂ := by
  obtain ⟨hlow₁, hhigh₁, hvalue₁, -⟩ := h₁
  obtain ⟨hlow₂, hhigh₂, hvalue₂, -⟩ := h₂
  have hless : n₁ < n₂ ↔
      (e₁ : Int) - 52 < e₂ - 52 ∨ (e₁ : Int) - 52 = e₂ - 52 ∧ m₁ < m₂ := by
    rw [← Nat.compare_eq_lt, ← compare_digits hlow₁ hhigh₁ hlow₂ hhigh₂ hvalue₁ hvalue₂,
      Ordering.then_eq_lt, Int.compare_eq_lt, Int.compare_eq_eq, Nat.compare_eq_lt]
  have hbits : magnitude m₁ e₁ < magnitude m₂ e₂ ↔
      (e₁ : Int) - 52 < e₂ - 52 ∨ (e₁ : Int) - 52 = e₂ - 52 ∧ m₁ < m₂ := by
    unfold magnitude
    omega
  exact hbits.trans hless.symm

/-! ## Places -/

/-- What the place of the double of an integer is. -/
inductive PlaceOf : Int → Int → Prop
  | zero : PlaceOf 0 0
  | positive {m e n : Nat} (digits : Digits m e n) : PlaceOf (magnitude m e) n
  | negative {m e n : Nat} (digits : Digits m e n) : PlaceOf (-magnitude m e - 1) (-n)

theorem PlaceOf.lt {p q i j : Int} (hp : PlaceOf p i) (hq : PlaceOf q j) : p < q ↔ i < j := by
  cases hp with
  | zero =>
    cases hq with
    | zero => exact Iff.rfl
    | @positive m e n digits =>
      have hpos := digits.pos
      have hplace := magnitude_pos m e
      omega
    | negative digits =>
      have hpos := digits.pos
      omega
  | @positive m e n digits =>
    have hpos := digits.pos
    have hplace := magnitude_pos m e
    cases hq with
    | zero => omega
    | positive digits' =>
      have hless := digits.magnitude_lt_iff digits'
      omega
    | negative digits' =>
      have hpos' := digits'.pos
      omega
  | negative digits =>
    have hpos := digits.pos
    cases hq with
    | zero => omega
    | positive digits' =>
      have hpos' := digits'.pos
      omega
    | negative digits' =>
      have hless := digits'.magnitude_lt_iff digits
      omega

/-- Places are in the order of the integers. -/
theorem PlaceOf.compare_eq {p q i j : Int} (hp : PlaceOf p i) (hq : PlaceOf q j) :
    compare p q = compare i j := by
  have hless := hp.lt hq
  have hmore := hq.lt hp
  rcases lt_trichotomy i j with h | h | h
  · rw [Int.compare_eq_lt.mpr h, Int.compare_eq_lt.mpr (by omega)]
  · rw [Int.compare_eq_eq.mpr h, Int.compare_eq_eq.mpr (by omega)]
  · rw [Int.compare_eq_gt.mpr h, Int.compare_eq_gt.mpr (by omega)]

/-- The place of a double that is an integer. For zero its sign has to be known. -/
theorem Holds.placeOf {x : Float} {i : Int} (h : Holds x.toModel.unpack i)
    (hzero : i = 0 → SortKey.place x = 0) : PlaceOf (SortKey.place x) i := by
  generalize hunpack : x.toModel.unpack = unpacked at h
  cases h with
  | zero sign =>
    rw [hzero rfl]
    exact .zero
  | @finite sign m e n hpos hlow hhigh hvalue hn =>
    have hdigits : Digits m e n := ⟨hlow, hhigh, hvalue, hn⟩
    have hbits : x.toBits.toNat = signBit sign * 2 ^ 63 + magnitude m e :=
      toNat_of_unpack hdigits hunpack
    have hexponent := hdigits.exponent_le
    have hsmall : magnitude m e < 2 ^ 63 := by
      unfold magnitude
      omega
    have hpow : Nat.pow 2 63 = 2 ^ 63 := rfl
    cases sign with
    | positive =>
      have hplace : SortKey.place x = magnitude m e := by
        unfold SortKey.place
        dsimp only
        rw [hbits, hpow, signBit, if_pos (by omega)]
        omega
      rw [hplace]
      exact .positive hdigits
    | negative =>
      have hplace : SortKey.place x = -magnitude m e - 1 := by
        unfold SortKey.place
        dsimp only
        rw [hbits, hpow, signBit, if_neg (by omega)]
        omega
      rw [hplace]
      exact .negative hdigits

/-- A double that is an integer is a number. -/
theorem Holds.isNaN_eq {x : Float} {i : Int} (h : Holds x.toModel.unpack i) : x.isNaN = false := by
  have hmodel : x.isNaN = x.toModel.unpack.isNaN := rfl
  rw [hmodel]
  generalize x.toModel.unpack = unpacked at h
  cases h <;> rfl

end Double

/-! ## Integers -/

theorem nearestNat_pos {n : Nat} (h : 0 < n) : 0 < nearestNat n :=
  calc 0 < nearestNat 1 := by decide
    _ ≤ nearestNat n := nearestNat_mono h

theorem nearest_eq_zero_iff {i : Int} : nearest i = 0 ↔ i = 0 := by
  have hnat (n : Nat) : nearestNat n = 0 ↔ n = 0 := by
    rcases Nat.eq_zero_or_pos n with rfl | hpos
    · exact iff_of_true (nearestNat_of_le (Nat.zero_le _)) rfl
    · have hnearest := nearestNat_pos hpos
      omega
  obtain ⟨n, rfl | rfl⟩ := i.eq_nat_or_neg
  · rw [nearest_natCast, Int.natCast_eq_zero, hnat, Int.natCast_eq_zero]
  · rw [nearest_neg, nearest_natCast, Int.neg_eq_zero, Int.natCast_eq_zero, hnat, Int.neg_eq_zero,
      Int.natCast_eq_zero]

namespace SortKey

theorem placeOf_floatOfInt (a : Int64) :
    Double.PlaceOf (place (Value.floatOfInt a)) (nearest a.toInt) := by
  refine (Value.holds_floatOfInt a).placeOf fun hzero => ?_
  have ha : a = 0 := Int64.toInt_inj.mp (nearest_eq_zero_iff.mp hzero)
  rw [ha]
  decide +kernel

/-- The key of an integer in a column of numbers is its double. -/
theorem ofCell_int (a : Int64) : ofCell true (.int a) = .number (Value.floatOfInt a) := by
  have hnan : (Value.floatOfInt a).isNaN = false := (Value.holds_floatOfInt a).isNaN_eq
  simp only [ofCell, Value.number?, hnan, if_true, Bool.false_eq_true, if_false]

/-- In a column of numbers integers are in the order of the integers that they are rounded to. -/
theorem compare_ofCell_int (a b : Int64) :
    (ofCell true (.int a)).compare (ofCell true (.int b)) =
      Ord.compare (nearest a.toInt) (nearest b.toInt) := by
  rw [ofCell_int, ofCell_int]
  exact (placeOf_floatOfInt a).compare_eq (placeOf_floatOfInt b)

end SortKey

end CorpusQuery
