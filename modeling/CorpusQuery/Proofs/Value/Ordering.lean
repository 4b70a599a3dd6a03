import CorpusQuery.Proofs.Value.Equality

/-!
# Order of values

Where the order of two values is defined, it is a partial order, and the values that it makes equal
are those that are equal (`compare_partial_order`). Doubles other than NaN are in the order of their
ranks (`Double.compare_eq_compare_rank`), and ranks and strings are in a total order. Lists are
compared up to the first items that are not made equal (`compareLists_cons_iff`), so the laws hold
of lists if they hold of their items: no comparison of two lists can fail at items that two others
have passed.
-/

namespace CorpusQuery

theorem eq_lt_of_ne {o : Ordering} (hgt : o ≠ .gt) (heq : o ≠ .eq) : o = .lt := by
  cases o with
  | lt => rfl
  | eq => exact absurd rfl heq
  | gt => exact absurd rfl hgt

theorem then_lt_of_ne {o : Ordering} (hgt : o ≠ .gt) : o.then .lt = .lt := by
  cases o with
  | lt | eq => rfl
  | gt => exact absurd rfl hgt

open Std in
/-- In a total order what is not greater than something not greater is less if one of the two
is. -/
theorem compare_eq_then {α : Type} [Ord α] [TransOrd α] {a b c : α} (hab : compare a b ≠ .gt)
    (hbc : compare b c ≠ .gt) : compare a c = (compare a b).then (compare b c) := by
  cases h : compare a b with
  | lt => exact TransCmp.lt_of_lt_of_isLE h (Ordering.isLE_iff_ne_gt.mpr hbc)
  | eq => exact TransCmp.congr_left h
  | gt => exact absurd h hab

namespace Double

open Float.Model Float.Model.UnpackedFloat

variable {x y z : Float}

/-- A place among numbers: the sign counts first, then the exponent, and then the digits. -/
abbrev Rank : Type := Int ×ₗ Int ×ₗ Int

/-- The rank with the given sign, exponent and digits. -/
def Rank.of (sign exponent digits : Int) : Rank := toLex (sign, toLex (exponent, digits))

/-- The rank of a number among all numbers. -/
def rank? : UnpackedFloat → Option Rank
  | .notANumber => none
  | .infinity .negative => some (.of (-2) 0 0)
  | .finite .negative m e _ => some (.of (-1) (-e) (-m))
  | .zero _ => some (.of 0 0 0)
  | .finite .positive m e _ => some (.of 1 e m)
  | .infinity .positive => some (.of 2 0 0)

theorem compare_neg (i j : Int) : compare (-i) (-j) = (compare i j).swap := by
  rcases lt_trichotomy i j with h | rfl | h
  · rw [Int.compare_eq_lt.mpr h, Int.compare_eq_gt.mpr (by omega)]
    rfl
  · rw [Int.compare_eq_eq.mpr rfl, Int.compare_eq_eq.mpr rfl]
    rfl
  · rw [Int.compare_eq_gt.mpr h, Int.compare_eq_lt.mpr (by omega)]
    rfl

/-- If the signs are the same, the exponents and the digits decide. -/
theorem Rank.compare_of (sign e m e' m' : Int) :
    Ord.compare (Rank.of sign e m) (Rank.of sign e' m') = (compare e e').then (compare m m') := by
  have hlex : Ord.compare (Rank.of sign e m) (Rank.of sign e' m') =
      (compare sign sign).then ((compare e e').then (compare m m')) := rfl
  rw [hlex, Int.compare_eq_eq.mpr rfl, Ordering.eq_then]

/-- Two numbers are in the order of their ranks. -/
theorem compare_eq_compare_rank (x y : UnpackedFloat) :
    x.compare y = (rank? x).bind fun p => (rank? y).map fun q => Ord.compare p q := by
  rcases x with (_ | _) | _ | _ | ⟨_ | _, m, e, hm⟩ <;>
    rcases y with (_ | _) | _ | _ | ⟨_ | _, m', e', hm'⟩ <;> try rfl
  case finite.negative.finite.negative =>
    simp [UnpackedFloat.compare, rank?, Rank.compare_of, compare_neg, compare_natCast,
      Ordering.swap_then]
  case finite.positive.finite.positive =>
    simp [UnpackedFloat.compare, rank?, Rank.compare_of, compare_natCast]

theorem compareNumbers_eq_ok_iff {o : Ordering} :
    Value.compareNumbers x y = .ok o ↔
      ∃ p q, rank? x.toModel.unpack = some p ∧ rank? y.toModel.unpack = some q ∧
        Ord.compare p q = o := by
  unfold Value.compareNumbers
  simp only [lt_iff, beq_eq, compare_eq_compare_rank]
  cases hp : rank? x.toModel.unpack with
  | none => simp
  | some p =>
    cases hq : rank? y.toModel.unpack with
    | none => simp
    | some q =>
      have hswap : Ord.compare q p = (Ord.compare p q).swap := Std.OrientedCmp.eq_swap
      cases h : Ord.compare p q <;> simp [h, hswap]

theorem compareNumbers_swap {o : Ordering} (h : Value.compareNumbers x y = .ok o) :
    Value.compareNumbers y x = .ok o.swap := by
  obtain ⟨p, q, hp, hq, rfl⟩ := compareNumbers_eq_ok_iff.mp h
  exact compareNumbers_eq_ok_iff.mpr ⟨q, p, hq, hp, Std.OrientedCmp.eq_swap⟩

theorem compareNumbers_eq_iff {o : Ordering} (h : Value.compareNumbers x y = .ok o) :
    o = .eq ↔ (x == y) = true := by
  obtain ⟨p, q, hp, hq, rfl⟩ := compareNumbers_eq_ok_iff.mp h
  rw [beq_eq, compare_eq_compare_rank, hp, hq]
  simp

theorem compareNumbers_trans {o o' : Ordering} (hxy : Value.compareNumbers x y = .ok o)
    (hyz : Value.compareNumbers y z = .ok o') (ho : o ≠ .gt) (ho' : o' ≠ .gt) :
    Value.compareNumbers x z = .ok (o.then o') := by
  obtain ⟨p, q, hp, hq, rfl⟩ := compareNumbers_eq_ok_iff.mp hxy
  obtain ⟨q', r, hq', hr, rfl⟩ := compareNumbers_eq_ok_iff.mp hyz
  cases hq.symm.trans hq'
  exact compareNumbers_eq_ok_iff.mpr ⟨p, r, hp, hr, compare_eq_then ho ho'⟩

end Double

namespace Value

variable {a b c : Value} {x : Float} {s : String} {o o' : Ordering}
  {items others rest : List Value}

/-! ## Order by the kind of value -/

theorem compare_number_iff (h : a.number? = some x) :
    a.compare b = .ok o ↔ ∃ y, b.number? = some y ∧ compareNumbers x y = .ok o := by
  cases a <;> cases h <;> cases b <;> simp [compare, number?]

theorem compare_str_iff :
    (str s).compare b = .ok o ↔ ∃ t, b = .str t ∧ Ord.compare s t = o := by
  cases b <;> simp [compare, number?]

/-- A list is compared with lists only. -/
theorem compare_list_iff :
    (list items).compare b = .ok o ↔
      ∃ others, b = .list others ∧ compareLists items others = .ok o := by
  cases b <;> simp [compare, number?]

/-- The values that are compared with nothing, not even with themselves. -/
inductive Unordered : Value → Prop
  | null : Unordered .null
  | map (entries : List (String × Value)) : Unordered (.map entries)
  | document (path : String) : Unordered (.document path)

theorem compare_of_unordered (h : Unordered a) (b : Value) :
    a.compare b = .error (.notOrdered a.kind b.kind) := by
  cases h <;> cases b <;> rfl

/-- Two lists are decided by their first items, unless these are made equal. -/
theorem compareLists_cons_iff :
    compareLists (a :: items) (b :: others) = .ok o ↔
      a.compare b = .ok .eq ∧ compareLists items others = .ok o ∨
        a.compare b = .ok o ∧ o ≠ .eq := by
  cases h : a.compare b with
  | error e => simp [compareLists, h]
  | ok decided =>
    cases decided <;> simp [compareLists, h]
    all_goals
      rintro rfl
      simp

/-! ## The laws -/

/-- Values are of one of the kinds that can be compared, or of none. -/
@[elab_as_elim]
theorem ordered_induction {motive : Value → Prop}
    (number : ∀ v x, v.number? = some x → motive v)
    (str : ∀ s, motive (.str s))
    (list : ∀ items, (∀ item ∈ items, motive item) → motive (.list items))
    (unordered : ∀ v, Unordered v → motive v) (v : Value) : motive v := by
  induction v using induction with
  | number v x hx => exact number v x hx
  | atom v hv =>
    cases hv with
    | null => exact unordered _ .null
    | str s => exact str s
    | document path => exact unordered _ (.document path)
  | list items ih => exact list items ih
  | map entries => exact unordered _ (.map entries)

/-- Two lists are decided at the same place in either direction. -/
theorem compareLists_swap
    (hswap : ∀ item ∈ items, ∀ b o, item.compare b = .ok o → b.compare item = .ok o.swap)
    (h : compareLists items others = .ok o) : compareLists others items = .ok o.swap := by
  induction items generalizing others with
  | nil => cases others <;> cases h <;> rfl
  | cons a items ih =>
    cases others with
    | nil =>
      cases h
      rfl
    | cons b others =>
      have hfirst := hswap a List.mem_cons_self b
      rw [compareLists_cons_iff] at h ⊢
      rcases h with ⟨hab, hitems⟩ | ⟨hab, hne⟩
      · have hrest := ih (fun item hmem => hswap item (List.mem_cons_of_mem _ hmem)) hitems
        exact .inl ⟨hfirst _ hab, hrest⟩
      · refine .inr ⟨hfirst _ hab, ?_⟩
        rwa [ne_eq, Ordering.swap_eq_eq]

theorem compare_swap (h : a.compare b = .ok o) : b.compare a = .ok o.swap := by
  induction a using ordered_induction generalizing b o with
  | number v x hx =>
    obtain ⟨y, hy, hxy⟩ := (compare_number_iff hx).mp h
    exact (compare_number_iff hy).mpr ⟨x, hx, Double.compareNumbers_swap hxy⟩
  | str s =>
    obtain ⟨t, rfl, rfl⟩ := compare_str_iff.mp h
    exact compare_str_iff.mpr ⟨s, rfl, Std.OrientedCmp.eq_swap⟩
  | list items ih =>
    obtain ⟨others, rfl, hitems⟩ := compare_list_iff.mp h
    have hothers := compareLists_swap (fun item hmem b o => ih item hmem) hitems
    exact compare_list_iff.mpr ⟨items, rfl, hothers⟩
  | unordered v hv =>
    rw [compare_of_unordered hv] at h
    cases h

theorem compare_swap_iff : a.compare b = .ok o ↔ b.compare a = .ok o.swap := by
  constructor
  · exact compare_swap
  · intro h
    have hback := compare_swap h
    rwa [Ordering.swap_swap] at hback

/-- Two lists that can be compared come out as equal just if they are equal. -/
theorem compareLists_eq_iff
    (heq : ∀ item ∈ items, ∀ b o, item.compare b = .ok o → (o = .eq ↔ item.equal b = true))
    (h : compareLists items others = .ok o) : o = .eq ↔ equalLists items others = true := by
  induction items generalizing others with
  | nil => cases others <;> cases h <;> simp [equalLists]
  | cons a items ih =>
    cases others with
    | nil =>
      cases h
      simp [equalLists]
    | cons b others =>
      have hfirst := heq a List.mem_cons_self b
      rw [equalLists, Bool.and_eq_true]
      rcases compareLists_cons_iff.mp h with ⟨hab, hitems⟩ | ⟨hab, hne⟩
      · have hrest := ih (fun item hmem => heq item (List.mem_cons_of_mem _ hmem)) hitems
        simp [(hfirst _ hab).mp rfl, hrest]
      · have hdiffer := mt (hfirst _ hab).mpr hne
        simp [hdiffer, hne]

theorem compare_eq_iff (h : a.compare b = .ok o) : o = .eq ↔ a.equal b = true := by
  induction a using ordered_induction generalizing b o with
  | number v x hx =>
    obtain ⟨y, hy, hxy⟩ := (compare_number_iff hx).mp h
    rw [Double.compareNumbers_eq_iff hxy, equal_number_iff hx, hy]
    simp
  | str s =>
    obtain ⟨t, rfl, rfl⟩ := compare_str_iff.mp h
    simp [equal]
  | list items ih =>
    obtain ⟨others, rfl, hitems⟩ := compare_list_iff.mp h
    have hequal : (list items).equal (list others) = equalLists items others := by simp [equal]
    rw [hequal]
    exact compareLists_eq_iff (fun item hmem b o => ih item hmem) hitems
  | unordered v hv =>
    rw [compare_of_unordered hv] at h
    cases h

/-- Of three lists the first two of which, and the last two, are in order, the first and the last
are: they are decided where one of the two pairs was, since before that all items are equal. -/
theorem compareLists_trans
    (htrans : ∀ item ∈ items, ∀ b c o o', item.compare b = .ok o → b.compare c = .ok o' →
      o ≠ .gt → o' ≠ .gt → item.compare c = .ok (o.then o'))
    (hab : compareLists items others = .ok o) (hbc : compareLists others rest = .ok o')
    (ho : o ≠ .gt) (ho' : o' ≠ .gt) : compareLists items rest = .ok (o.then o') := by
  induction items generalizing others rest with
  | nil =>
    cases others with
    | nil =>
      cases hab
      exact hbc
    | cons b others =>
      cases hab
      cases rest with
      | nil =>
        cases hbc
        exact absurd rfl ho'
      | cons c rest => rfl
  | cons a items ih =>
    cases others with
    | nil =>
      cases hab
      exact absurd rfl ho
    | cons b others =>
      cases rest with
      | nil =>
        cases hbc
        exact absurd rfl ho'
      | cons c rest =>
        have hfirst := htrans a List.mem_cons_self b c
        rw [compareLists_cons_iff] at hab hbc
        rcases hab with ⟨hab, hitems⟩ | ⟨hab, hne⟩ <;> rcases hbc with ⟨hbc, hothers⟩ | ⟨hbc, hne'⟩
        · have hrest := ih (fun item hmem => htrans item (List.mem_cons_of_mem _ hmem)) hitems
            hothers
          exact compareLists_cons_iff.mpr (.inl ⟨hfirst _ _ hab hbc nofun nofun, hrest⟩)
        · obtain rfl := eq_lt_of_ne ho' hne'
          rw [then_lt_of_ne ho]
          exact compareLists_cons_iff.mpr (.inr ⟨hfirst _ _ hab hbc nofun nofun, nofun⟩)
        · obtain rfl := eq_lt_of_ne ho hne
          exact compareLists_cons_iff.mpr (.inr ⟨hfirst .lt .eq hab hbc nofun nofun, nofun⟩)
        · obtain rfl := eq_lt_of_ne ho hne
          exact compareLists_cons_iff.mpr (.inr ⟨hfirst _ _ hab hbc nofun ho', nofun⟩)

theorem compare_trans (hab : a.compare b = .ok o) (hbc : b.compare c = .ok o') (ho : o ≠ .gt)
    (ho' : o' ≠ .gt) : a.compare c = .ok (o.then o') := by
  induction a using ordered_induction generalizing b c o o' with
  | number v x hx =>
    obtain ⟨y, hy, hxy⟩ := (compare_number_iff hx).mp hab
    obtain ⟨z, hz, hyz⟩ := (compare_number_iff hy).mp hbc
    exact (compare_number_iff hx).mpr ⟨z, hz, Double.compareNumbers_trans hxy hyz ho ho'⟩
  | str s =>
    obtain ⟨t, rfl, rfl⟩ := compare_str_iff.mp hab
    obtain ⟨u, rfl, rfl⟩ := compare_str_iff.mp hbc
    exact compare_str_iff.mpr ⟨u, rfl, compare_eq_then ho ho'⟩
  | list items ih =>
    obtain ⟨others, rfl, hitems⟩ := compare_list_iff.mp hab
    obtain ⟨rest, rfl, hothers⟩ := compare_list_iff.mp hbc
    have hrest := compareLists_trans (fun item hmem b c o o' => ih item hmem) hitems hothers ho ho'
    exact compare_list_iff.mpr ⟨rest, rfl, hrest⟩
  | unordered v hv =>
    rw [compare_of_unordered hv] at hab
    cases hab

/-- The order of values is a partial order that goes with equality. Whether two values can be
compared does not depend on which one comes first, and neither does what comes out, up to the
direction. They come out as equal just if they are equal. Of three values the first two of which are
in order, and the last two, the first and the last are in order, and less unless all are equal. -/
theorem compare_partial_order :
    (∀ a b : Value, (∃ e, a.compare b = .error e) ↔ ∃ e, b.compare a = .error e) ∧
      (∀ (a b : Value) (o : Ordering), a.compare b = .ok o → b.compare a = .ok o.swap) ∧
      (∀ (a b : Value) (o : Ordering), a.compare b = .ok o → (o = .eq ↔ a.equal b = true)) ∧
      ∀ (a b c : Value) (o o' : Ordering), a.compare b = .ok o → b.compare c = .ok o' →
        o ≠ .gt → o' ≠ .gt →
          a.compare c = .ok (if o = .eq ∧ o' = .eq then .eq else .lt) := by
  have herror (a b : Value) : (∃ e, a.compare b = .error e) → ∃ e, b.compare a = .error e := by
    rintro ⟨e, he⟩
    cases h : b.compare a with
    | error e' => exact ⟨e', rfl⟩
    | ok o => cases he.symm.trans (compare_swap h)
  refine ⟨fun a b => ⟨herror a b, herror b a⟩, fun _ _ _ => compare_swap,
    fun _ _ _ => compare_eq_iff, fun a b c o o' hab hbc ho ho' => ?_⟩
  rw [compare_trans hab hbc ho ho']
  by_cases heq : o = .eq
  · subst heq
    by_cases heq' : o' = .eq
    · rw [heq']
      rfl
    · rw [eq_lt_of_ne ho' heq']
      rfl
  · rw [eq_lt_of_ne ho heq]
    rfl

/-- The first two lists are decided by their second items, which are a truth value and a double, and
the other two by their lengths. -/
theorem compare_partial_order_of_nested :
    let first : Value := .list [.str "a", .list [.bool false], .null]
    let second : Value := .list [.str "a", .list [.float 0.5]]
    let third : Value := .list [.str "a", .list [.float 0.5], .document "a.md"]
    first.compare second = .ok .lt ∧ second.compare third = .ok .lt ∧
      first.compare third = .ok .lt ∧ third.compare first = .ok .gt ∧
      second.equal third = false := by
  intro first second third
  have hsecond : first.compare second = .ok .lt := by decide +kernel
  have hthird : second.compare third = .ok .lt := by decide +kernel
  obtain ⟨-, hswap, hequal, htrans⟩ := compare_partial_order
  have hfirst := htrans _ _ _ _ _ hsecond hthird nofun nofun
  refine ⟨hsecond, hthird, hfirst, hswap _ _ _ hfirst, ?_⟩
  rw [← Bool.not_eq_true, ← hequal _ _ _ hthird]
  exact nofun

end Value

end CorpusQuery
