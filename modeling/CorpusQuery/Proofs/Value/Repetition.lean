import CorpusQuery.Value.Arithmetic

/-!
# Repetition

A string or a list is multiplied with an integer by repeating it. No more than `2 ^ 20` bytes or
items come of that: the length of the result is computed exactly for every count, also where it is
no number of 64 bits, and a product that would be too long fails (`repeatCount_eq`). Within that
bound a product is `copies` of the value, on whichever side it stands, and copies are added as their
counts are (`repetition_bounded_and_additive`).
-/

namespace CorpusQuery.Value

variable {v : Value} {what : Repeated}

/-! ## Copies -/

/-- A string or a list: what is appended and repeated. -/
def IsSequence (v : Value) : Prop := v.kind = .str ∨ v.kind = .list

/-- What can be repeated, and as what: a string, or a list with something in it. -/
inductive RepeatedAs : Value → Repeated → Prop
  | str (s : String) : RepeatedAs (.str s) .string
  | list {items : List Value} (h : items ≠ []) : RepeatedAs (.list items) .list

/-- The length of what can be repeated, in bytes or in items. -/
def units : Value → Nat
  | .str s => s.utf8ByteSize
  | .list items => items.length
  | _ => 0

/-- The string or the list that goes on with another one. -/
def continuedBy : Value → Value → Value
  | .str s, .str t => .str (s ++ t)
  | .list items, .list others => .list (items ++ others)
  | v, _ => v

/-- A string or a list written down a number of times, one after the other. -/
def copies : Value → Nat → Value
  | .str _, 0 => .str ""
  | .list _, 0 => .list []
  | v, 0 => v
  | v, k + 1 => v.continuedBy (copies v k)

theorem copies_str (s : String) (k : Nat) :
    (str s).copies k = .str (String.join (List.replicate k s)) := by
  induction k with
  | zero => rfl
  | succ k ih => rw [copies, ih, continuedBy, List.replicate_succ, String.join_cons]

theorem copies_list (items : List Value) (k : Nat) :
    (list items).copies k = .list (List.replicate k items).flatten := by
  induction k with
  | zero => rfl
  | succ k ih => rw [copies, ih, continuedBy, List.replicate_succ, List.flatten_cons]

theorem copies_empty (k : Nat) : (str "").copies k = .str "" := by
  induction k with
  | zero => rfl
  | succ k ih => rw [copies, ih]; rfl

theorem units_continuedBy {w : Value} (h : v.kind = w.kind) :
    (v.continuedBy w).units = v.units + w.units := by
  cases v <;> cases w <;> simp [kind, continuedBy, units] at h ⊢

theorem kind_copies (h : RepeatedAs v what) (k : Nat) : (v.copies k).kind = v.kind := by
  cases h with
  | str s => rw [copies_str]; rfl
  | @list items => rw [copies_list]; rfl

theorem units_copies (h : RepeatedAs v what) (k : Nat) : (v.copies k).units = v.units * k := by
  induction k with
  | zero => cases h <;> rfl
  | succ k ih =>
    rw [copies, units_continuedBy (kind_copies h k).symm, ih, Nat.mul_succ, Nat.add_comm]

/-- Copies that are added are copies. -/
theorem add_copies (h : RepeatedAs v what) (m n : Nat) :
    (v.copies m).add (v.copies n) = .ok (v.copies (m + n)) := by
  cases h with
  | str s =>
    rw [copies_str, copies_str, copies_str, add, ← String.join_append,
      List.replicate_append_replicate]
  | @list items =>
    rw [copies_list, copies_list, copies_list, add, ← List.flatten_append,
      List.replicate_append_replicate]

/-! ## Products -/

/-- A length that is within the bound is found to be so, and every other one is refused. -/
theorem repeatCount_eq (what : Repeated) (length : Nat) (n : Int64) :
    repeatCount what length n =
      if length * n.toInt.toNat ≤ maxRepeatLength then
        .ok (if length = 0 then 0 else n.toInt.toNat)
      else .error (.repetitionTooLong what) := by
  have htotal : length * (if length = 0 then 0 else n.toInt.toNat) = length * n.toInt.toNat := by
    by_cases h : length = 0
    · rw [h, Nat.zero_mul, Nat.zero_mul]
    · rw [if_neg h]
  unfold repeatCount size64?
  simp only [htotal]
  by_cases hsize : length * n.toInt.toNat < UInt64.size
  · rw [if_pos hsize]
    simp only [UInt64.toNat_ofNat_of_lt' hsize]
  · have hlong : ¬length * n.toInt.toNat ≤ maxRepeatLength := by
      have hbound : maxRepeatLength < UInt64.size := by decide
      omega
    rw [if_neg hsize, if_neg hlong]

/-- A product with a count is made of copies, if it is no longer than it may be. -/
theorem mul_int (h : RepeatedAs v what) (n : Int64) :
    v.mul (.int n) =
      if v.units * n.toInt.toNat ≤ maxRepeatLength then .ok (v.copies n.toInt.toNat)
      else .error (.repetitionTooLong what) := by
  cases h with
  | str s =>
    have hmul : (str s).mul (.int n) = repeatString s n := rfl
    rw [hmul, repeatString, repeatCount_eq, units]
    by_cases hempty : s.utf8ByteSize = 0
    · -- an empty string is not repeated at all, and copies of it are empty too
      obtain rfl := String.utf8ByteSize_eq_zero_iff.mp hempty
      rw [copies_empty]
      split <;> rfl
    · rw [if_neg hempty, copies_str]
      split <;> rfl
  | @list items hne =>
    have hmul : (list items).mul (.int n) = repeatList items n := rfl
    have hlength : items.length ≠ 0 := mt List.length_eq_zero_iff.mp hne
    rw [hmul, repeatList, repeatCount_eq, units, copies_list, if_neg hlength]
    split <;> rfl

theorem RepeatedAs.isSequence (h : RepeatedAs v what) : v.IsSequence := by
  cases h with
  | str => exact .inl rfl
  | list => exact .inr rfl

theorem int_mul (h : v.IsSequence) (n : Int64) : (int n).mul v = v.mul (.int n) := by
  cases v <;> first | rfl | simp [IsSequence, kind] at h

/-- No product is longer than it may be. -/
theorem units_le_of_mul {w : Value} {n : Int64} (h : RepeatedAs v what)
    (hmul : v.mul (.int n) = .ok w) : w.units ≤ maxRepeatLength := by
  rw [mul_int h] at hmul
  split at hmul
  · next hbound =>
    obtain rfl := Except.ok.inj hmul
    rwa [units_copies h]
  · cases hmul

theorem add_int_int {m n k : Int64} (h : k.toInt = m.toInt + n.toInt) :
    (int m).add (.int n) = .ok (.int k) := by
  have hadd : (int m).add (.int n) = exact (m.toInt + n.toInt) := rfl
  rw [hadd, exact_eq_ok_iff]
  exact ⟨k, h, rfl⟩

/-- Products with two counts are added to the product with the sum of the counts. -/
theorem add_mul_int {m n k : Int64} (h : RepeatedAs v what) (hm : 0 ≤ m.toInt) (hn : 0 ≤ n.toInt)
    (hk : k.toInt = m.toInt + n.toInt) (hbound : v.units * k.toInt.toNat ≤ maxRepeatLength) :
    ∃ x y, v.mul (.int m) = .ok x ∧ v.mul (.int n) = .ok y ∧ x.add y = v.mul (.int k) := by
  have hsum : k.toInt.toNat = m.toInt.toNat + n.toInt.toNat := by omega
  have hleft : v.units * m.toInt.toNat ≤ v.units * k.toInt.toNat :=
    Nat.mul_le_mul_left _ (by omega)
  have hright : v.units * n.toInt.toNat ≤ v.units * k.toInt.toNat :=
    Nat.mul_le_mul_left _ (by omega)
  refine ⟨v.copies m.toInt.toNat, v.copies n.toInt.toNat, ?_, ?_, ?_⟩
  · rw [mul_int h, if_pos (by omega)]
  · rw [mul_int h, if_pos (by omega)]
  · rw [mul_int h, if_pos hbound, add_copies h, hsum]

/-- A string or a list is repeated as often as the count says, on whichever side the count stands,
and not at all for a negative one. The product fails if it would be longer than `2 ^ 20` bytes or
items, for every count of 64 bits, and it is never longer. The products with two counts that are not
negative are added to the product with the sum of the counts, if that is within the bound. -/
theorem repetition_bounded_and_additive (h : RepeatedAs v what) :
    (∀ n : Int64,
      v.mul (.int n) =
        (if v.units * n.toInt.toNat ≤ 1048576 then .ok (v.copies n.toInt.toNat)
          else .error (.repetitionTooLong what)) ∧
      (int n).mul v = v.mul (.int n) ∧
      ∀ w, v.mul (.int n) = .ok w → w.units ≤ 1048576) ∧
    ∀ m n k : Int64, 0 ≤ m.toInt → 0 ≤ n.toInt → k.toInt = m.toInt + n.toInt →
      v.units * k.toInt.toNat ≤ 1048576 →
      (int m).add (.int n) = .ok (.int k) ∧
      ∃ x y z, v.mul (.int m) = .ok x ∧ v.mul (.int n) = .ok y ∧ v.mul (.int k) = .ok z ∧
        x.add y = .ok z := by
  constructor
  · intro n
    exact ⟨mul_int h n, int_mul h.isSequence n, fun w hw => units_le_of_mul h hw⟩
  · intro m n k hm hn hk hbound
    obtain ⟨x, y, hx, hy, hsum⟩ := add_mul_int h hm hn hk hbound
    have hz : v.mul (.int k) = .ok (v.copies k.toInt.toNat) := by
      rw [mul_int h]
      exact if_pos hbound
    exact ⟨add_int_int hk, x, y, _, hx, hy, hz, hsum.trans hz⟩

/-- Two bytes are repeated up to the bound, not once more, and also not so often that the length of
the result has more than 64 bits. -/
theorem repetition_bounded_and_additive_of_two_bytes :
    (str "é").mul (.int (-3)) = .ok (.str "") ∧
      (str "é").mul (.int 524289) = .error (.repetitionTooLong .string) ∧
      (int Int64.maxValue).mul (.str "é") = .error (.repetitionTooLong .string) ∧
      (∃ x y z, (str "é").mul (.int 524287) = .ok x ∧ (str "é").mul (.int 1) = .ok y ∧
        (str "é").mul (.int 524288) = .ok z ∧ x.add y = .ok z) := by
  obtain ⟨hmul, hadd⟩ := repetition_bounded_and_additive (.str "é")
  have hbytes : (str "é").units = 2 := by decide
  have htoo {n : Int64} (h : ¬2 * n.toInt.toNat ≤ 1048576) :
      (str "é").mul (.int n) = .error (.repetitionTooLong .string) := by
    rw [(hmul n).1, hbytes, if_neg h]
  refine ⟨(hmul (-3)).1.trans ?_, htoo (by decide), ?_, ?_⟩
  · rw [hbytes]
    rfl
  · rw [(hmul Int64.maxValue).2.1]
    exact htoo (by decide)
  · have hlimit : (str "é").units * (524288 : Int64).toInt.toNat ≤ 1048576 := by
      rw [hbytes]
      decide
    exact (hadd 524287 1 524288 (by decide) (by decide) (by decide) hlimit).2

end CorpusQuery.Value
