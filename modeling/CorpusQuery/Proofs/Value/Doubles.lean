import CorpusQuery.Value.Relations
import Mathlib

/-!
# The doubles of integers

A double has 53 significant binary digits. An integer with more of them is rounded to the nearest
one that has no more, and of two that are as near to the one with an even last digit: that integer
is `nearest`. The doubles of integers hold the rounded integers (`Double.holds_ofInt`), and compare
as these do (`Double.Holds.compareNumbers_eq`).
-/

namespace CorpusQuery

/-! ## Rounding to the nearest -/

/-- `n / 2 ^ k`, rounded to the nearest number, and to the even one of two that are as near. -/
def roundShift (n k : Nat) : Nat :=
  if 2 * (n % 2 ^ k) < 2 ^ k then n / 2 ^ k
  else if 2 ^ k < 2 * (n % 2 ^ k) then n / 2 ^ k + 1
  else n / 2 ^ k + n / 2 ^ k % 2

theorem roundShift_zero (n : Nat) : roundShift n 0 = n := by
  simp [roundShift, Nat.mod_one]

theorem roundShift_mul_two_pow (n k j : Nat) :
    roundShift (n * 2 ^ j) (k + j) = roundShift n k := by
  have hpos : 0 < 2 ^ j := Nat.two_pow_pos j
  have hdouble : 2 * (n % 2 ^ k * 2 ^ j) = 2 * (n % 2 ^ k) * 2 ^ j := (Nat.mul_assoc _ _ _).symm
  rw [roundShift, roundShift, Nat.pow_add, Nat.mul_div_mul_right _ _ hpos, Nat.mul_mod_mul_right,
    hdouble]
  simp only [Nat.mul_lt_mul_right hpos]

theorem roundShift_mul_two_pow_self (n k : Nat) : roundShift (n * 2 ^ k) k = n := by
  have h := roundShift_mul_two_pow n 0 k
  rwa [Nat.zero_add, roundShift_zero] at h

theorem roundShift_cases (n k : Nat) :
    roundShift n k = n / 2 ^ k ∧ 2 * (n % 2 ^ k) ≤ 2 ^ k ∨
      roundShift n k = n / 2 ^ k + 1 ∧ 2 ^ k ≤ 2 * (n % 2 ^ k) := by
  unfold roundShift
  split
  · exact .inl ⟨rfl, by omega⟩
  · split
    · exact .inr ⟨rfl, by omega⟩
    · rcases Nat.mod_two_eq_zero_or_one (n / 2 ^ k) with heven | hodd
      · exact .inl ⟨by omega, by omega⟩
      · exact .inr ⟨by omega, by omega⟩

theorem roundShift_mono {n m : Nat} (h : n ≤ m) (k : Nat) : roundShift n k ≤ roundShift m k := by
  have hquotient : n / 2 ^ k ≤ m / 2 ^ k := Nat.div_le_div_right h
  rcases hquotient.lt_or_eq with hlt | heq
  · have hn := roundShift_cases n k
    have hm := roundShift_cases m k
    omega
  · have hrest : n % 2 ^ k ≤ m % 2 ^ k := by
      have hn := Nat.div_add_mod n (2 ^ k)
      have hm := Nat.div_add_mod m (2 ^ k)
      rw [heq] at hn
      omega
    -- the quotients are the same, so a tie is broken in the same way
    unfold roundShift
    rw [heq]
    split <;> split <;> (try split) <;> (try split) <;> omega

/-! ## Integers with 53 digits -/

/-- The number of binary digits of `n` that a double has no place for. -/
def extraDigits (n : Nat) : Nat := n.log2 - 52

/-- The number with at most 53 binary digits nearest to `n`. -/
def nearestNat (n : Nat) : Nat := roundShift n (extraDigits n) * 2 ^ extraDigits n

/-- The integer with at most 53 binary digits nearest to an integer. -/
def nearest (i : Int) : Int := i.sign * nearestNat i.natAbs

theorem extraDigits_of_lt {n : Nat} (h : n < 2 ^ 53) : extraDigits n = 0 := by
  rcases Nat.eq_zero_or_pos n with rfl | hpos
  · rfl
  · have hlog := (Nat.log2_lt hpos.ne').mpr h
    exact Nat.sub_eq_zero_of_le (by omega)

/-- The digits that are kept make a number of at most 53 digits, or the next power of two. -/
theorem roundShift_extraDigits_le (n : Nat) : roundShift n (extraDigits n) ≤ 2 ^ 53 := by
  have hquotient : n / 2 ^ extraDigits n < 2 ^ 53 := by
    rw [Nat.div_lt_iff_lt_mul (Nat.two_pow_pos _), ← Nat.pow_add]
    have hlog : n.log2 + 1 ≤ 53 + extraDigits n := by
      unfold extraDigits
      omega
    exact Nat.lt_of_lt_of_le Nat.lt_log2_self (Nat.pow_le_pow_right (by decide) hlog)
  have hcases := roundShift_cases n (extraDigits n)
  omega

/-- If some digits are not kept, 53 of them are. -/
theorem le_roundShift_extraDigits {n : Nat} (h : 52 ≤ n.log2) :
    2 ^ 52 ≤ roundShift n (extraDigits n) := by
  have hn : n ≠ 0 := by
    rintro rfl
    exact absurd h (by decide)
  have hquotient : 2 ^ 52 ≤ n / 2 ^ extraDigits n := by
    rw [Nat.le_div_iff_mul_le (Nat.two_pow_pos _), ← Nat.pow_add]
    have hlog : 52 + extraDigits n = n.log2 := Nat.add_sub_cancel' h
    rw [hlog]
    exact Nat.log2_self_le hn
  have hcases := roundShift_cases n (extraDigits n)
  omega

theorem nearestNat_of_le {n : Nat} (h : n ≤ 2 ^ 53) : nearestNat n = n := by
  rcases h.lt_or_eq with hlt | rfl
  · rw [nearestNat, extraDigits_of_lt hlt, roundShift_zero, Nat.pow_zero, Nat.mul_one]
  · decide

theorem nearestNat_mono {n m : Nat} (h : n ≤ m) : nearestNat n ≤ nearestNat m := by
  rcases Nat.eq_zero_or_pos n with rfl | hn
  · exact Nat.zero_le _
  have hlog : n.log2 ≤ m.log2 :=
    (Nat.le_log2 (by omega)).mpr ((Nat.log2_self_le hn.ne').trans h)
  have hdigits : extraDigits n ≤ extraDigits m := Nat.sub_le_sub_right hlog 52
  rcases hdigits.lt_or_eq with hlt | heq
  · -- the power of two between the two numbers is a number of one digit
    have hm : 52 ≤ m.log2 := by
      unfold extraDigits at hlt
      omega
    calc nearestNat n ≤ 2 ^ 53 * 2 ^ extraDigits n :=
          Nat.mul_le_mul_right _ (roundShift_extraDigits_le n)
      _ = 2 ^ 52 * 2 ^ (extraDigits n + 1) := by rw [← Nat.pow_add, ← Nat.pow_add]; congr 1; omega
      _ ≤ 2 ^ 52 * 2 ^ extraDigits m :=
          Nat.mul_le_mul_left _ (Nat.pow_le_pow_right (by decide) hlt)
      _ ≤ nearestNat m := Nat.mul_le_mul_right _ (le_roundShift_extraDigits hm)
  · unfold nearestNat
    rw [heq]
    exact Nat.mul_le_mul_right _ (roundShift_mono h _)

theorem nearest_natCast (n : Nat) : nearest n = nearestNat n := by
  rcases Nat.eq_zero_or_pos n with rfl | hpos
  · rfl
  · rw [nearest, Int.sign_eq_one_of_pos (by omega), Int.one_mul, Int.natAbs_natCast]

theorem nearest_neg (i : Int) : nearest (-i) = -nearest i := by
  rw [nearest, nearest, Int.sign_neg, Int.natAbs_neg, Int.neg_mul]

theorem nearest_of_natAbs_le {i : Int} (h : i.natAbs ≤ 2 ^ 53) : nearest i = i := by
  rw [nearest, nearestNat_of_le h, Int.sign_mul_natAbs]

theorem nearest_mono {i j : Int} (h : i ≤ j) : nearest i ≤ nearest j := by
  obtain ⟨n, rfl | rfl⟩ := i.eq_nat_or_neg <;> obtain ⟨m, rfl | rfl⟩ := j.eq_nat_or_neg
  · rw [nearest_natCast, nearest_natCast]
    exact Int.ofNat_le.mpr (nearestNat_mono (by omega))
  · have hn : n = 0 := by omega
    have hm : m = 0 := by omega
    subst hn hm
    exact le_refl _
  · rw [nearest_neg, nearest_natCast, nearest_natCast]
    omega
  · rw [nearest_neg, nearest_neg, nearest_natCast, nearest_natCast]
    have := nearestNat_mono (n := m) (m := n) (by omega)
    omega

/-- Rounding keeps the order of two integers unless it makes them equal. -/
theorem compare_nearest_eq_iff (i j : Int) :
    compare (nearest i) (nearest j) = compare i j ↔ (nearest i = nearest j → i = j) := by
  rcases lt_trichotomy i j with h | rfl | h
  · have hle := nearest_mono h.le
    rw [Int.compare_eq_lt.mpr h, Int.compare_eq_lt]
    exact ⟨fun hlt heq => absurd heq hlt.ne, fun hkept => lt_of_le_of_ne hle (mt hkept h.ne)⟩
  · exact ⟨fun _ _ => rfl, fun _ =>
      (Int.compare_eq_eq.mpr rfl).trans (Int.compare_eq_eq.mpr rfl).symm⟩
  · have hle := nearest_mono h.le
    rw [Int.compare_eq_gt.mpr h, Int.compare_eq_gt]
    exact ⟨fun hlt heq => absurd heq hlt.ne', fun hkept =>
      lt_of_le_of_ne hle fun heq => h.ne' (hkept heq.symm)⟩

/-! ## Rounding of doubles -/

namespace Double

open Float.Model Float.Model.UnpackedFloat

/-- The mantissa and the two digits behind it after a shift: the last digit that was shifted out,
and whether any of those before it was not zero. -/
theorem shiftRight_succ (n k : Nat) :
    ExtendedMantissa.ofMantissaAndAccuracy n .exact >>> (k + 1) =
      ⟨n / 2 ^ (k + 1), n / 2 ^ k % 2 != 0, n % 2 ^ k != 0⟩ := by
  induction k with
  | zero => simp [HShiftRight.hShiftRight, Nat.repeat, ExtendedMantissa.shiftRightOne,
      ExtendedMantissa.ofMantissaAndAccuracy, Nat.mod_one]
  | succ k ih =>
    have hstep : ExtendedMantissa.ofMantissaAndAccuracy n .exact >>> (k + 1 + 1) =
        (ExtendedMantissa.ofMantissaAndAccuracy n .exact >>> (k + 1)).shiftRightOne := rfl
    have hsticky : (n / 2 ^ k % 2 != 0 || n % 2 ^ k != 0) = (n % 2 ^ (k + 1) != 0) := by
      have hpos := Nat.two_pow_pos k
      rw [Nat.mod_pow_succ]
      rcases Nat.mod_two_eq_zero_or_one (n / 2 ^ k) with hdigit | hdigit <;> simp [hdigit]
    rw [hstep, ih, ExtendedMantissa.shiftRightOne, Nat.div_div_eq_div_mul, ← Nat.pow_succ, hsticky]

/-- The two digits behind the mantissa are enough to round it. -/
theorem roundedMantissa_shiftRight (n k : Nat) :
    (ExtendedMantissa.ofMantissaAndAccuracy n .exact >>> k).roundedMantissa = roundShift n k := by
  cases k with
  | zero =>
    rw [roundShift_zero]
    rfl
  | succ k =>
    have hbelow := Nat.mod_lt n (Nat.two_pow_pos k)
    rw [shiftRight_succ, roundShift, Nat.mod_pow_succ, Nat.pow_succ]
    rcases Nat.mod_two_eq_zero_or_one (n / 2 ^ k) with hdigit | hdigit
    · have hless : 2 * (n % 2 ^ k + 2 ^ k * 0) < 2 ^ k * 2 := by omega
      rw [hdigit, if_pos hless]
      cases hsticky : n % 2 ^ k != 0 <;> rfl
    · have hmore : ¬2 * (n % 2 ^ k + 2 ^ k * 1) < 2 ^ k * 2 := by omega
      rw [hdigit, if_neg hmore]
      by_cases hrest : n % 2 ^ k = 0
      · rw [hrest, if_neg (by omega)]
        rfl
      · rw [if_pos (by omega), bne_iff_ne.mpr hrest]
        rfl

theorem targetExponent_eq (m : Nat) (e : Int) :
    Format.binary64.targetExponent (totalExponent m e) = max (m.log2 + e - 52) (-1074) := by
  have hmin : Format.binary64.minExponent = -1074 := rfl
  have hbits : Format.binary64.mantissaBits = 53 := rfl
  rw [Format.targetExponent, totalExponent, hmin, hbits]
  omega

/-- A mantissa of at least 53 digits is shifted to 53 digits. -/
theorem shiftToTargetExponent_eq {m : Nat} {e : Int} (hm : 52 ≤ m.log2)
    (he : -1074 ≤ e + extraDigits m) :
    shiftToTargetExponent .binary64 m e .exact =
      (ExtendedMantissa.ofMantissaAndAccuracy m .exact >>> extraDigits m, e + extraDigits m) := by
  have htarget : Format.binary64.targetExponent (totalExponent m e) = e + extraDigits m := by
    rw [targetExponent_eq]
    unfold extraDigits at he ⊢
    omega
  have hshift : (e + extraDigits m - e).toNat = extraDigits m := by omega
  rw [shiftToTargetExponent, htarget, shiftToExponent, hshift]

/-- Whether a double is the integer `i`, which is at most `2 ^ 64`: it is zero, or it has 53 digits,
of which the last one counts `2 ^ (e - 52)`. -/
inductive Holds : UnpackedFloat → Int → Prop
  | zero (sign : Sign) : Holds (.zero sign) 0
  | finite (sign : Sign) {m e n : Nat} (hpos : 0 < m) (hlow : 2 ^ 52 ≤ m) (hhigh : m < 2 ^ 53)
    (hvalue : m * 2 ^ e = n * 2 ^ 52) (hn : n ≤ 2 ^ 64) :
    Holds (.finite sign m ((e : Int) - 52) hpos) (sign.apply n)

theorem log2_of_digits {m : Nat} (hlow : 2 ^ 52 ≤ m) (hhigh : m < 2 ^ 53) : m.log2 = 52 :=
  (Nat.log2_eq_iff (by omega)).mpr ⟨hlow, hhigh⟩

theorem exponent_le {m e n : Nat} (hlow : 2 ^ 52 ≤ m) (hvalue : m * 2 ^ e = n * 2 ^ 52)
    (hn : n ≤ 2 ^ 64) : e ≤ 64 := by
  have hpow : 2 ^ 52 * 2 ^ e ≤ 2 ^ 52 * 2 ^ 64 :=
    calc 2 ^ 52 * 2 ^ e ≤ m * 2 ^ e := Nat.mul_le_mul_right _ hlow
      _ = 2 ^ 52 * n := by rw [hvalue, Nat.mul_comm]
      _ ≤ 2 ^ 52 * 2 ^ 64 := Nat.mul_le_mul_left _ hn
  exact (Nat.pow_le_pow_iff_right (by decide)).mp (Nat.le_of_mul_le_mul_left hpow (by decide))

/-- Rounding to 53 digits gives an integer if the digits that are kept are those of an integer. -/
theorem roundWithAccuracy_holds (sign : Sign) {m e n : Nat} {exponent : Int} (hm : 52 ≤ m.log2)
    (hexponent : exponent + extraDigits m = (e : Int) - 52)
    (hvalue : roundShift m (extraDigits m) * 2 ^ e = n * 2 ^ 52) (hn : n ≤ 2 ^ 64) :
    Holds (roundWithAccuracy .binary64 sign m exponent .exact) (sign.apply n) := by
  have hlow := le_roundShift_extraDigits hm
  have hhigh := roundShift_extraDigits_le m
  rw [roundWithAccuracy, shiftToTargetExponent_eq hm (by omega)]
  dsimp only
  rw [roundedMantissa_shiftRight, hexponent]
  generalize roundShift m (extraDigits m) = kept at *
  have hlog : 52 ≤ kept.log2 := (Nat.le_log2 (by omega)).mpr hlow
  rw [shiftToTargetExponent_eq hlog (by omega)]
  rcases hhigh.lt_or_eq with hlt | rfl
  · have hsame : (e : Int) - 52 + (0 : Nat) = e - 52 := by omega
    simp only [extraDigits_of_lt hlt, hsame]
    split
    · next h => exact absurd (show kept = 0 from h) (by omega)
    · exact .finite sign (by omega) hlow hlt hvalue hn
  · -- all digits were ones, and one more shift makes room for the next power of two
    have hone : extraDigits (2 ^ 53) = 1 := by decide
    have hnext : (e : Int) - 52 + (1 : Nat) = (e + 1 : Nat) - 52 := by omega
    simp only [hone, hnext]
    split
    · next h => exact absurd (show 2 ^ 53 / 2 = 0 from h) (by decide)
    · refine .finite sign (by decide) (m := 2 ^ 52) le_rfl (by decide) ?_ hn
      rw [← hvalue, Nat.pow_succ]
      omega

/-! ## Packing -/

theorem unpackSign_packComponents (sign : Sign) (e : BitVec 11) (m : BitVec 52) :
    Sign.ofBitVec (unpackSign (packComponents .binary64 sign e m)) = sign := by
  rw [unpackSign, packComponents, BitVec.extractLsb, BitVec.extractLsb'_append_eq_of_le (by decide),
    BitVec.extractLsb'_append_eq_of_le (by decide)]
  cases sign <;> rfl

theorem toNat_implicitBit {m : Nat} (hlow : 2 ^ 52 ≤ m) (hhigh : m < 2 ^ 53) :
    (1#1 ++ BitVec.ofNat 52 m).toNat = m := by
  rw [BitVec.toNat_append, ← Nat.shiftLeft_add_eq_or_of_lt (BitVec.ofNat 52 m).isLt,
    Nat.shiftLeft_eq, BitVec.toNat_ofNat, BitVec.toNat_ofNat]
  omega

/-- A double that is an integer is not changed by storing it. -/
theorem Holds.unpack_pack {x : UnpackedFloat} {i : Int} (h : Holds x i) :
    (Float.Model.pack x).unpack = x := by
  cases h with
  | zero sign => cases sign <;> rfl
  | @finite sign m e n hpos hlow hhigh hvalue hn =>
    have he := exponent_le hlow hvalue hn
    have hbias : Format.binary64.exponentBias = 1023 := rfl
    have hbiased : ((e : Int) - 52 + Format.binary64.exponentBias + (52 : Nat)).toNat =
        e + 1023 := by
      rw [hbias]
      omega
    have hnat : (BitVec.ofNat 11 (e + 1023)).toNat = e + 1023 := by
      rw [BitVec.toNat_ofNat, Nat.mod_eq_of_lt (by omega)]
    have hones : BitVec.ofNat 11 (e + 1023) ≠ -1#11 := by
      intro h
      have hmax : e + 1023 = 2047 := hnat.symm.trans (congrArg BitVec.toNat h)
      omega
    have hzeros : BitVec.ofNat 11 (e + 1023) ≠ 0#11 := by
      intro h
      have hmin : e + 1023 = 0 := hnat.symm.trans (congrArg BitVec.toNat h)
      omega
    have hexponent : ((e + 1023 : Nat) : Int) - (Format.binary64.exponentBias + (52 : Nat)) =
        e - 52 := by
      rw [hbias]
      omega
    have hpacked : UnpackedFloat.pack .binary64 (.finite sign m ((e : Int) - 52) hpos) =
        packComponents .binary64 sign (BitVec.ofNat 11 (e + 1023)) (BitVec.ofNat 52 m) := by
      have hbits : 52 + 1 = Format.binary64.mantissaBits := rfl
      rw [UnpackedFloat.pack]
      dsimp only
      rw [hbiased, log2_of_digits hlow hhigh, if_neg (by omega), if_pos hbits]
    have hbits : (Float.Model.pack (.finite sign m ((e : Int) - 52) hpos)).toBits.toBitVec =
        packComponents .binary64 sign (BitVec.ofNat 11 (e + 1023)) (BitVec.ofNat 52 m) := hpacked
    rw [Float.Model.unpack, hbits, UnpackedFloat.unpack]
    simp only [unpackExponent_packComponents, unpackMantissa_packComponents,
      unpackSign_packComponents, hones, hzeros, if_false, toNat_implicitBit hlow hhigh, hnat,
      hexponent]

/-! ## Integers as doubles -/

/-- The digits that are kept of an integer with some zeros behind it. -/
theorem roundShift_mul_log2 {n j : Nat} (h : 52 ≤ n.log2 + j) :
    roundShift (n * 2 ^ j) (n.log2 + j - 52) * 2 ^ n.log2 = nearestNat n * 2 ^ 52 := by
  rcases Nat.le_total 52 n.log2 with hlog | hlog
  · have hshift : n.log2 + j - 52 = extraDigits n + j := by
      unfold extraDigits
      omega
    have hdigits : extraDigits n + 52 = n.log2 := Nat.sub_add_cancel hlog
    rw [hshift, roundShift_mul_two_pow, nearestNat, Nat.mul_assoc, ← Nat.pow_add, hdigits]
  · have hzeros : j = (52 - n.log2) + (n.log2 + j - 52) := by omega
    have hnone : extraDigits n = 0 := Nat.sub_eq_zero_of_le hlog
    calc roundShift (n * 2 ^ j) (n.log2 + j - 52) * 2 ^ n.log2
        = n * 2 ^ (52 - n.log2) * 2 ^ n.log2 := by
          conv => lhs; rw [hzeros, Nat.pow_add, ← Nat.mul_assoc]
          rw [← hzeros, roundShift_mul_two_pow_self]
      _ = n * 2 ^ 52 := by rw [Nat.mul_assoc, ← Nat.pow_add, Nat.sub_add_cancel hlog]
      _ = nearestNat n * 2 ^ 52 := by rw [nearestNat, hnone, roundShift_zero, Nat.pow_zero,
          Nat.mul_one]

theorem log2_mul_two_pow {n : Nat} (hn : 0 < n) (j : Nat) : (n * 2 ^ j).log2 = n.log2 + j := by
  have hpos : 0 < 2 ^ j := Nat.two_pow_pos j
  rw [Nat.log2_eq_iff (Nat.mul_pos hn hpos).ne', Nat.pow_add, Nat.add_right_comm, Nat.pow_add]
  exact ⟨Nat.mul_le_mul_right _ (Nat.log2_self_le hn.ne'),
    Nat.mul_lt_mul_of_pos_right Nat.lt_log2_self hpos⟩

/-- An integer with zeros behind it is rounded to the nearest one with 53 digits. -/
theorem roundWithAccuracy_mul_two_pow {n j : Nat} (hn : 0 < n) (hsmall : n ≤ 2 ^ 64)
    (h : 52 ≤ n.log2 + j) :
    Holds (roundWithAccuracy .binary64 .positive (n * 2 ^ j) (-(j : Int)) .exact)
      (nearestNat n) := by
  have hlog := log2_mul_two_pow hn j
  have hdigits : extraDigits (n * 2 ^ j) = n.log2 + j - 52 := by rw [extraDigits, hlog]
  refine roundWithAccuracy_holds .positive (by omega) (e := n.log2) ?_ ?_ ?_
  · omega
  · rw [hdigits]
    exact roundShift_mul_log2 h
  · exact (nearestNat_mono hsmall).trans (by decide)

/-- The double one. -/
def one : UnpackedFloat := .finite .positive (2 ^ 52) (-52) (by decide)

theorem Holds.mul_one {x : UnpackedFloat} {i : Int} (h : Holds x i) :
    Holds (UnpackedFloat.mul .binary64 x one) i := by
  cases h with
  | zero sign => exact .zero _
  | @finite sign m e n hpos hlow hhigh hvalue hn =>
    have hlog := log2_of_digits hlow hhigh
    have hdigits : extraDigits (m * 2 ^ 52) = 52 := by
      rw [extraDigits, log2_mul_two_pow hpos, hlog]
    have hsign : sign * .positive = sign := by cases sign <;> rfl
    rw [one, UnpackedFloat.mul, hsign]
    refine roundWithAccuracy_holds sign (e := e) ?_ ?_ ?_ hn
    · rw [log2_mul_two_pow hpos, hlog]
      decide
    · rw [hdigits]
      omega
    · rw [hdigits, roundShift_mul_two_pow_self, hvalue]

theorem Holds.neg {x : UnpackedFloat} {i : Int} (h : Holds x i) : Holds x.neg (-i) := by
  cases h with
  | zero sign => exact .zero _
  | @finite sign m e n hpos hlow hhigh hvalue hn =>
    have hsign : -(sign.apply n) = (-sign).apply n := by
      cases sign with
      | negative => exact Int.neg_neg n
      | positive => rfl
    rw [hsign]
    exact .finite _ hpos hlow hhigh hvalue hn

/-- The double of a natural number below `2 ^ 53` is that number. -/
theorem ofNat_holds {n : Nat} (h : n < 2 ^ 53) : Holds (UnpackedFloat.ofNat .binary64 n) n := by
  rcases Nat.eq_zero_or_pos n with rfl | hn
  · exact .zero _
  · have hlog : n.log2 ≤ 52 := Nat.le_of_lt_succ ((Nat.log2_lt hn.ne').mpr h)
    have hpositive : compare (n : Int) 0 = .gt := Int.compare_eq_gt.mpr (by omega)
    have htarget : Format.binary64.targetExponent (totalExponent n 0) = (n.log2 : Int) - 52 := by
      rw [targetExponent_eq]
      omega
    have hshift : (0 - ((n.log2 : Int) - 52)).toNat = 52 - n.log2 := by omega
    rw [UnpackedFloat.ofNat, UnpackedFloat.ofInt, UnpackedFloat.normalize, hpositive]
    dsimp only
    rw [Int.toNat_natCast, UnpackedFloat.round, htarget, decreaseExponent, hshift]
    dsimp only
    rw [Nat.shiftLeft_eq, Int.zero_sub]
    have hrounded := roundWithAccuracy_mul_two_pow (j := 52 - n.log2) hn (by omega) (by omega)
    rwa [nearestNat_of_le h.le] at hrounded

/-- The double of a larger one is computed as a decimal number. -/
theorem ofScientific_holds {n : Nat} (hn : 0 < n) (h : n ≤ 2 ^ 64) :
    Holds (UnpackedFloat.ofScientific .binary64 n 0) (nearestNat n) := by
  have hrounded := roundWithAccuracy_mul_two_pow (j := 53) hn h (by omega)
  have hbits : Format.binary64.mantissaBits = 53 := rfl
  have hten : 10 ^ (0 : Int).toNat = 1 := rfl
  have hrange : ¬(0 : Int) < -(2 ^ 11 + n.log2) := by omega
  rw [UnpackedFloat.ofScientific, dif_neg hn.ne', if_neg (by decide), if_neg hrange, if_pos le_rfl]
  simp only [UnpackedFloat.mul, hbits, hten, Nat.shiftLeft_eq, Nat.mul_one, Int.add_zero]
  exact hrounded

/-- The double of a natural number is the nearest one with 53 digits. -/
theorem holds_ofNat {n : Nat} (h : n ≤ 2 ^ 64) :
    Holds (Float.ofNat n).toModel.unpack (nearestNat n) := by
  have hofNat : Float.ofNat n = Float.ofScientific n false 0 := rfl
  rw [hofNat, Float.ofScientific]
  split
  · next hsmall =>
    have hexact := ofNat_holds hsmall.1
    have hword : (Float.Model.ofUInt64 n.toUInt64).unpack = UnpackedFloat.ofNat .binary64 n := by
      have hnat : n.toUInt64.toNat = n := Nat.mod_eq_of_lt (by omega)
      rw [Float.Model.ofUInt64, UnpackedFloat.ofUInt64, hnat]
      exact hexact.unpack_pack
    have hproduct : (n.toUInt64.toFloat * Float.ofBits 0x3FF0000000000000).toModel =
        Float.Model.pack
          (UnpackedFloat.mul .binary64 (Float.Model.ofUInt64 n.toUInt64).unpack one) := rfl
    have hone := hexact.mul_one
    rw [← hword] at hone
    have hresult : (n.toUInt64.toFloat * Float.ofBits 0x3FF0000000000000).toModel.unpack =
        UnpackedFloat.mul .binary64 (Float.Model.ofUInt64 n.toUInt64).unpack one := by
      rw [hproduct, hone.unpack_pack]
    rw [nearestNat_of_le hsmall.1.le]
    exact hresult ▸ hone
  · next hlarge =>
    have hn : 0 < n := by omega
    have hrounded := ofScientific_holds hn h
    exact hrounded.unpack_pack.symm ▸ hrounded

/-- The double of an integer is the nearest one with 53 digits. -/
theorem holds_ofInt {i : Int} (h : i.natAbs ≤ 2 ^ 64) :
    Holds (Float.ofInt i).toModel.unpack (nearest i) := by
  cases i with
  | ofNat n => exact nearest_natCast n ▸ holds_ofNat h
  | negSucc n =>
    have hnegative : Holds (Float.ofNat (n + 1)).toModel.unpack.neg (-nearestNat (n + 1)) :=
      (holds_ofNat h).neg
    have hnearest : nearest (.negSucc n) = -nearestNat (n + 1) := by
      rw [← nearest_natCast, ← nearest_neg]
      rfl
    have hneg : (Float.ofInt (.negSucc n)).toModel.unpack =
        (Float.Model.pack (Float.ofNat (n + 1)).toModel.unpack.neg).unpack := rfl
    rw [hneg, hnegative.unpack_pack, hnearest]
    exact hnegative

/-! ## Comparison -/

section Compare

variable {m₁ m₂ e₁ e₂ n₁ n₂ : Nat}

/-- Of two numbers with 53 digits, the one whose last digit counts less is less. -/
theorem lt_of_exponent_lt (hhigh : m₁ < 2 ^ 53) (hlow : 2 ^ 52 ≤ m₂)
    (h₁ : m₁ * 2 ^ e₁ = n₁ * 2 ^ 52) (h₂ : m₂ * 2 ^ e₂ = n₂ * 2 ^ 52) (h : e₁ < e₂) : n₁ < n₂ := by
  have hlt : n₁ * 2 ^ 52 < n₂ * 2 ^ 52 :=
    calc n₁ * 2 ^ 52 = m₁ * 2 ^ e₁ := h₁.symm
      _ < 2 ^ 53 * 2 ^ e₁ := Nat.mul_lt_mul_of_pos_right hhigh (Nat.two_pow_pos e₁)
      _ = 2 ^ 52 * 2 ^ (e₁ + 1) := by rw [← Nat.pow_add, ← Nat.pow_add]; congr 1; omega
      _ ≤ 2 ^ 52 * 2 ^ e₂ := Nat.mul_le_mul_left _ (Nat.pow_le_pow_right (by decide) h)
      _ ≤ m₂ * 2 ^ e₂ := Nat.mul_le_mul_right _ hlow
      _ = n₂ * 2 ^ 52 := h₂
  exact Nat.lt_of_mul_lt_mul_right hlt

/-- Comparing exponents first and mantissas second compares the numbers. -/
theorem compare_digits (hlow₁ : 2 ^ 52 ≤ m₁) (hhigh₁ : m₁ < 2 ^ 53) (hlow₂ : 2 ^ 52 ≤ m₂)
    (hhigh₂ : m₂ < 2 ^ 53) (h₁ : m₁ * 2 ^ e₁ = n₁ * 2 ^ 52) (h₂ : m₂ * 2 ^ e₂ = n₂ * 2 ^ 52) :
    (compare ((e₁ : Int) - 52) ((e₂ : Int) - 52)).then (compare m₁ m₂) = compare n₁ n₂ := by
  rcases Nat.lt_trichotomy e₁ e₂ with h | rfl | h
  · rw [Int.compare_eq_lt.mpr (by omega),
      Nat.compare_eq_lt.mpr (lt_of_exponent_lt hhigh₁ hlow₂ h₁ h₂ h)]
    rfl
  · have hscale (a b : Nat) : a * 2 ^ e₁ < b * 2 ^ e₁ ↔ a < b :=
      Nat.mul_lt_mul_right (Nat.two_pow_pos e₁)
    rw [Int.compare_eq_eq.mpr rfl, Ordering.eq_then]
    rcases Nat.lt_trichotomy m₁ m₂ with h | rfl | h
    · have hn := (hscale m₁ m₂).mpr h
      rw [Nat.compare_eq_lt.mpr h, Nat.compare_eq_lt.mpr (by omega)]
    · rw [Nat.compare_eq_eq.mpr rfl, Nat.compare_eq_eq.mpr (by omega)]
    · have hn := (hscale m₂ m₁).mpr h
      rw [Nat.compare_eq_gt.mpr h, Nat.compare_eq_gt.mpr (by omega)]
  · rw [Int.compare_eq_gt.mpr (by omega),
      Nat.compare_eq_gt.mpr (lt_of_exponent_lt hhigh₂ hlow₁ h₂ h₁ h)]
    rfl

end Compare

theorem compare_natCast (n m : Nat) : compare (n : Int) m = compare n m := by
  rcases Nat.lt_trichotomy n m with h | rfl | h
  · rw [Nat.compare_eq_lt.mpr h, Int.compare_eq_lt.mpr (Int.ofNat_lt.mpr h)]
  · rw [Nat.compare_eq_eq.mpr rfl, Int.compare_eq_eq.mpr rfl]
  · rw [Nat.compare_eq_gt.mpr h, Int.compare_eq_gt.mpr (Int.ofNat_lt.mpr h)]

theorem compare_neg_natCast (n m : Nat) : compare (-n : Int) (-m) = (compare n m).swap := by
  rcases Nat.lt_trichotomy n m with h | rfl | h
  · rw [Nat.compare_eq_lt.mpr h, Int.compare_eq_gt.mpr (by omega)]
    rfl
  · rw [Nat.compare_eq_eq.mpr rfl, Int.compare_eq_eq.mpr rfl]
    rfl
  · rw [Nat.compare_eq_gt.mpr h, Int.compare_eq_lt.mpr (by omega)]
    rfl

theorem pos_of_digits {m e n : Nat} (hpos : 0 < m) (hvalue : m * 2 ^ e = n * 2 ^ 52) : 0 < n :=
  Nat.pos_of_mul_pos_right (hvalue ▸ Nat.mul_pos hpos (Nat.two_pow_pos e))

/-- Doubles that are integers compare as the integers do. -/
theorem Holds.compare_eq {x y : UnpackedFloat} {i j : Int} (hx : Holds x i) (hy : Holds y j) :
    x.compare y = some (compare i j) := by
  cases hx with
  | zero =>
    cases hy with
    | zero => rfl
    | @finite sign m e n hpos hlow hhigh hvalue hn =>
      have hn := pos_of_digits hpos hvalue
      cases sign with
      | positive =>
        have hless : compare (0 : Int) n = .lt := Int.compare_eq_lt.mpr (by omega)
        exact congrArg some hless.symm
      | negative =>
        have hmore : compare (0 : Int) (-n) = .gt := Int.compare_eq_gt.mpr (by omega)
        exact congrArg some hmore.symm
  | @finite sign m e n hpos hlow hhigh hvalue hn =>
    have hn := pos_of_digits hpos hvalue
    cases hy with
    | zero =>
      cases sign with
      | positive =>
        have hmore : compare (n : Int) 0 = .gt := Int.compare_eq_gt.mpr (by omega)
        exact congrArg some hmore.symm
      | negative =>
        have hless : compare (-n : Int) 0 = .lt := Int.compare_eq_lt.mpr (by omega)
        exact congrArg some hless.symm
    | @finite sign' m' e' n' hpos' hlow' hhigh' hvalue' hn' =>
      have hn' := pos_of_digits hpos' hvalue'
      have hdigits := compare_digits hlow hhigh hlow' hhigh' hvalue hvalue'
      cases sign with
      | positive =>
        cases sign' with
        | positive => exact congrArg some (hdigits.trans (compare_natCast n n').symm)
        | negative =>
          have hmore : compare (n : Int) (-n') = .gt := Int.compare_eq_gt.mpr (by omega)
          exact congrArg some hmore.symm
      | negative =>
        cases sign' with
        | positive =>
          have hless : compare (-n : Int) n' = .lt := Int.compare_eq_lt.mpr (by omega)
          exact congrArg some hless.symm
        | negative =>
          have hswap := congrArg Ordering.swap hdigits
          exact congrArg some (hswap.trans (compare_neg_natCast n n').symm)

theorem lt_iff (x y : Float) :
    x < y ↔ x.toModel.unpack.compare y.toModel.unpack = some .lt := by
  have hlt : x < y ↔ decide (x.toModel < y.toModel) = true := Iff.rfl
  have hmodel : x.toModel < y.toModel ↔
      (x.toModel.unpack.compare y.toModel.unpack == some .lt) = true := Iff.rfl
  rw [hlt, decide_eq_true_iff, hmodel, beq_iff_eq]

theorem beq_eq (x y : Float) :
    (x == y) = (x.toModel.unpack.compare y.toModel.unpack == some .eq) := rfl

/-- Doubles that are integers are equal if the integers are. -/
theorem Holds.beq_eq_decide {x y : Float} {i j : Int} (hx : Holds x.toModel.unpack i)
    (hy : Holds y.toModel.unpack j) : (x == y) = decide (i = j) := by
  rw [beq_eq, hx.compare_eq hy, Bool.eq_iff_iff, beq_iff_eq, Option.some_inj,
    Int.compare_eq_eq, decide_eq_true_iff]

/-- Doubles that are integers have an order, that of the integers. -/
theorem Holds.compareNumbers_eq {x y : Float} {i j : Int} (hx : Holds x.toModel.unpack i)
    (hy : Holds y.toModel.unpack j) : Value.compareNumbers x y = .ok (compare i j) := by
  have hless : x < y ↔ i < j := by
    rw [lt_iff, hx.compare_eq hy, Option.some_inj, Int.compare_eq_lt]
  have hmore : y < x ↔ j < i := by
    rw [lt_iff, hy.compare_eq hx, Option.some_inj, Int.compare_eq_lt]
  unfold Value.compareNumbers
  rw [hx.beq_eq_decide hy]
  simp only [hless, hmore, decide_eq_true_iff]
  rcases lt_trichotomy i j with h | rfl | h
  · rw [if_pos h, Int.compare_eq_lt.mpr h]
  · rw [if_neg (lt_irrefl i), if_pos rfl, Int.compare_eq_eq.mpr rfl]
  · rw [if_neg h.not_gt, if_neg h.ne', if_pos h, Int.compare_eq_gt.mpr h]

end Double

end CorpusQuery
