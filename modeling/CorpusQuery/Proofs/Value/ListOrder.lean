import CorpusQuery.Proofs.Value.Ordering

/-!
# The first difference of two lists

Lists are compared item by item, and each pair of items is compared before it is known whether the
two are equal. So the first two items that differ decide, unless there is something before them that
is compared with nothing, such as null, although it is equal to itself (`compareLists_append`). In
that case the comparison fails there (`list_order_of_first_difference`).
-/

namespace CorpusQuery

theorem Double.compareNumbers_of_beq {x y : Float} (h : (x == y) = true) :
    Value.compareNumbers x y = .ok .eq := by
  rw [beq_eq, beq_iff_eq] at h
  have hless : ¬x < y := by
    rw [lt_iff, h]
    nofun
  rw [Value.compareNumbers, if_neg hless, if_pos (by rw [beq_eq, h]; rfl)]

namespace Value

variable {a b x y : Value} {items others equals xs ys : List Value}

/-! ## What is compared with nothing -/

/-- A value with a part that is compared with nothing. The parts of a list are its items and their
parts. -/
inductive HoldsUnordered : Value → Prop
  | self {v : Value} (h : Unordered v) : HoldsUnordered v
  | item {items : List Value} {item : Value} (hmem : item ∈ items) (h : HoldsUnordered item) :
    HoldsUnordered (.list items)

mutual

/-- The kind of the first part of a value, from the left, that is compared with nothing. -/
def firstUnordered : Value → Option Kind
  | .null => some .null
  | .map _ => some .map
  | .document _ => some .document
  | .list items => firstUnorderedIn items
  | .bool _ | .int _ | .float _ | .str _ => none
termination_by structural v => v

/-- The same for the items of a list, one after the other. -/
def firstUnorderedIn : List Value → Option Kind
  | [] => none
  | item :: items => (firstUnordered item).or (firstUnorderedIn items)
termination_by structural items => items

end

theorem firstUnordered_number {v : Value} {x : Float} (h : v.number? = some x) :
    v.firstUnordered = none := by
  cases v <;> first | rfl | cases h

theorem firstUnordered_of_unordered {v : Value} (h : Unordered v) :
    v.firstUnordered = some v.kind := by
  cases h <;> rfl

theorem not_unordered_list : ¬Unordered (list items) := nofun

theorem firstUnorderedIn_eq_none_iff :
    firstUnorderedIn items = none ↔ ∀ item ∈ items, item.firstUnordered = none := by
  induction items with
  | nil => simp [firstUnorderedIn]
  | cons item items ih => simp [firstUnorderedIn, Option.or_eq_none_iff, ih]

theorem holdsUnordered_list_iff :
    HoldsUnordered (list items) ↔ ∃ item ∈ items, HoldsUnordered item := by
  constructor
  · intro h
    cases h with
    | self h => exact absurd h not_unordered_list
    | item hmem h => exact ⟨_, hmem, h⟩
  · rintro ⟨item, hmem, h⟩
    exact .item hmem h

theorem firstUnordered_eq_none_iff (v : Value) : v.firstUnordered = none ↔ ¬HoldsUnordered v := by
  induction v using ordered_induction with
  | number v x hx =>
    refine iff_of_true (firstUnordered_number hx) fun h => ?_
    cases h with
    | self h => cases h <;> cases hx
    | item => cases hx
  | str s => exact iff_of_true rfl fun h => by cases h with | self h => cases h
  | list items ih =>
    rw [firstUnordered, firstUnorderedIn_eq_none_iff, holdsUnordered_list_iff, not_exists]
    exact forall_congr' fun item => (forall_congr' (ih item)).trans not_and.symm
  | unordered v hv =>
    rw [firstUnordered_of_unordered hv]
    exact iff_of_false nofun (not_not_intro (.self hv))

/-! ## Items that are equal -/

/-- What comes of a comparison when it has been passed by what may be compared with nothing. -/
def behind (first : Option Kind) (outcome : Except EvalError Ordering) :
    Except EvalError Ordering :=
  match first with
  | none => outcome
  | some kind => .error (.notOrdered kind kind)

/-- Equal items are passed, up to the first one with a part that is compared with nothing. -/
theorem compareLists_append_of_items (h : List.Forall₂ (fun a b => a.equal b = true) equals others)
    (hitems : ∀ a ∈ equals, ∀ b, a.equal b = true →
      a.compare b = behind a.firstUnordered (.ok .eq)) :
    compareLists (equals ++ xs) (others ++ ys) =
      behind (firstUnorderedIn equals) (compareLists xs ys) := by
  induction h with
  | nil => rfl
  | @cons a b equals others hab _ ih =>
    have hfirst := hitems a List.mem_cons_self b hab
    have hrest := ih fun item hmem => hitems item (List.mem_cons_of_mem _ hmem)
    rw [List.cons_append, List.cons_append, compareLists, hfirst, firstUnorderedIn]
    cases a.firstUnordered with
    | none => exact hrest
    | some kind => rfl

theorem compare_of_equal (h : a.equal b = true) :
    a.compare b = behind a.firstUnordered (.ok .eq) := by
  induction a using ordered_induction generalizing b with
  | number v x hx =>
    obtain ⟨y, hy, hxy⟩ := (equal_number_iff hx).mp h
    rw [firstUnordered_number hx]
    exact (compare_number_iff hx).mpr ⟨y, hy, Double.compareNumbers_of_beq hxy⟩
  | str s =>
    obtain rfl := (equal_atom_iff (.str s)).mp h
    exact compare_str_iff.mpr ⟨s, rfl, Std.ReflCmp.compare_self⟩
  | list items ih =>
    obtain ⟨others, rfl, hitems⟩ := equal_list_iff.mp h
    have hlists := @compareLists_append_of_items _ _ [] [] hitems fun a hmem b => ih a hmem
    rw [List.append_nil, List.append_nil] at hlists
    exact hlists
  | unordered v hv =>
    rw [compare_of_unordered hv, firstUnordered_of_unordered hv]
    cases hv <;> cases b <;> first | rfl | cases h

theorem compareLists_append (h : List.Forall₂ (fun a b => a.equal b = true) equals others) :
    compareLists (equals ++ xs) (others ++ ys) =
      behind (firstUnorderedIn equals) (compareLists xs ys) :=
  compareLists_append_of_items h fun _ _ _ => compare_of_equal

/-! ## The first difference -/

/-- The items with which a list begins that are equal to those of another one, up to the first
difference. -/
def equalPart : List Value → List Value → List Value
  | a :: items, b :: others => if a.equal b then a :: equalPart items others else []
  | _, _ => []

theorem equalPart_append (h : List.Forall₂ (fun a b => a.equal b = true) equals others) :
    equalPart (equals ++ xs) (others ++ ys) = equals ++ equalPart xs ys := by
  induction h with
  | nil => rfl
  | cons hab _ ih => rw [List.cons_append, List.cons_append, equalPart, if_pos hab, ih]; rfl

/-- Each of two lists begins with as many items, which are equal. -/
theorem exists_equalPart (items others : List Value) :
    ∃ equals xs ys, items = equalPart items others ++ xs ∧ others = equals ++ ys ∧
      List.Forall₂ (fun a b => a.equal b = true) (equalPart items others) equals := by
  induction items generalizing others with
  | nil => exact ⟨[], [], others, rfl, rfl, .nil⟩
  | cons a items ih =>
    cases others with
    | nil => exact ⟨[], a :: items, [], rfl, rfl, .nil⟩
    | cons b others =>
      rw [equalPart]
      split
      · next hab =>
        obtain ⟨equals, xs, ys, hitems, hothers, hequal⟩ := ih others
        exact ⟨b :: equals, xs, ys, congrArg (a :: ·) hitems, congrArg (b :: ·) hothers,
          .cons hab hequal⟩
      · exact ⟨[], a :: items, b :: others, rfl, rfl, .nil⟩

/-- Whether two lists are compared at their first difference: by the first two items that are not
equal, or by their lengths if there are no such items. -/
structure DecidedAtDifference (items others : List Value) : Prop where
  unequal : ∀ equals equals' x y xs ys, items = equals ++ x :: xs → others = equals' ++ y :: ys →
    List.Forall₂ (fun a b => a.equal b = true) equals equals' → x.equal y = false →
    (list items).compare (.list others) = x.compare y
  longer : ∀ equals xs, items = equals ++ xs →
    List.Forall₂ (fun a b => a.equal b = true) equals others →
    (list items).compare (.list others) = .ok (Ord.compare items.length others.length)
  shorter : ∀ equals ys, others = equals ++ ys →
    List.Forall₂ (fun a b => a.equal b = true) items equals →
    (list items).compare (.list others) = .ok (Ord.compare items.length others.length)

theorem compare_list (items others : List Value) :
    (list items).compare (.list others) = compareLists items others := by
  simp [compare]

/-- The first two items that differ decide by themselves. -/
theorem compareLists_of_unequal (h : x.equal y = false) :
    compareLists (x :: xs) (y :: ys) = x.compare y := by
  cases hxy : x.compare y with
  | error e => simp [compareLists, hxy]
  | ok o =>
    cases o with
    | lt | gt => simp [compareLists, hxy]
    | eq => cases h.symm.trans ((compare_eq_iff hxy).mp rfl)

/-- A longer list comes behind a part of its beginning. -/
theorem compareLists_nil_right (xs : List Value) (n : Nat) :
    compareLists xs [] = .ok (Ord.compare (n + xs.length) n) := by
  cases xs with
  | nil => rw [List.length_nil, Nat.add_zero, Nat.compare_eq_eq.mpr rfl]; rfl
  | cons x xs => rw [List.length_cons, Nat.compare_eq_gt.mpr (by omega)]; rfl

theorem compareLists_nil_left (ys : List Value) (n : Nat) :
    compareLists [] ys = .ok (Ord.compare n (n + ys.length)) := by
  cases ys with
  | nil => rw [List.length_nil, Nat.add_zero, Nat.compare_eq_eq.mpr rfl]; rfl
  | cons y ys => rw [List.length_cons, Nat.compare_eq_lt.mpr (by omega)]; rfl

/-- The common beginning of two lists plays no part if nothing in it is compared with nothing. -/
theorem compareLists_behind (hequal : List.Forall₂ (fun a b => a.equal b = true) equals others)
    (hend : equalPart xs ys = [])
    (h : firstUnorderedIn (equalPart (equals ++ xs) (others ++ ys)) = none) :
    compareLists (equals ++ xs) (others ++ ys) = compareLists xs ys := by
  rw [equalPart_append hequal, hend, List.append_nil] at h
  rw [compareLists_append hequal, h]
  rfl

/-- Two lists are compared at their first difference if nothing before it is compared with
nothing. -/
theorem decidedAtDifference_of_ordered (h : firstUnorderedIn (equalPart items others) = none) :
    DecidedAtDifference items others where
  unequal := by
    rintro equals equals' x y xs ys rfl rfl hequal hne
    have hend : equalPart (x :: xs) (y :: ys) = [] := by
      rw [equalPart, hne]
      rfl
    rw [compare_list, compareLists_behind hequal hend h, compareLists_of_unequal hne]
  longer := by
    rintro equals xs rfl hequal
    have hend : equalPart xs [] = [] := by cases xs <;> rfl
    have hlists := compareLists_behind hequal hend ((List.append_nil others).symm ▸ h)
    rw [List.append_nil] at hlists
    rw [compare_list, hlists, List.length_append, hequal.length_eq]
    exact compareLists_nil_right xs _
  shorter := by
    rintro equals ys rfl hequal
    have hend : equalPart [] ys = [] := rfl
    have hlists := compareLists_behind hequal hend ((List.append_nil items).symm ▸ h)
    rw [List.append_nil] at hlists
    rw [compare_list, hlists, List.length_append, hequal.length_eq]
    exact compareLists_nil_left ys _

/-- Two lists are compared at their first difference if no item before it has a part that is
compared with nothing. If one has, the comparison fails with the kind of the first such part, though
the lists are equal there. So two lists that are equal come out as equal just if they have no such
part. -/
theorem list_order_of_first_difference (items others : List Value) :
    ((∀ item ∈ equalPart items others, ¬HoldsUnordered item) →
        DecidedAtDifference items others) ∧
      (∀ kind, firstUnorderedIn (equalPart items others) = some kind →
        (list items).compare (.list others) = .error (.notOrdered kind kind)) ∧
      ((list items).equal (.list others) = true →
        ((list items).compare (.list others) = .ok .eq ↔ ¬HoldsUnordered (.list items))) := by
  refine ⟨fun h => ?_, fun kind hkind => ?_, fun hequal => ?_⟩
  · refine decidedAtDifference_of_ordered (firstUnorderedIn_eq_none_iff.mpr fun item hmem => ?_)
    exact (firstUnordered_eq_none_iff item).mpr (h item hmem)
  · obtain ⟨equals, xs, ys, hitems, hothers, hequal⟩ := exists_equalPart items others
    have hlists := @compareLists_append _ _ xs ys hequal
    rw [← hitems, ← hothers, hkind] at hlists
    exact (compare_list items others).trans hlists
  · rw [compare_of_equal hequal, ← firstUnordered_eq_none_iff]
    cases (list items).firstUnordered with
    | none => exact iff_of_true rfl rfl
    | some kind => exact iff_of_false nofun nofun

/-- A null behind the first difference does not count, and one before it does. -/
theorem list_order_of_first_difference_of_nulls :
    (list [.int 1, .float 2.0, .null]).compare (.list [.bool true, .int 3, .null]) = .ok .lt ∧
      (list [.int 1, .list [.null], .int 2]).compare (.list [.int 1, .list [.null], .int 3]) =
        .error (.notOrdered .null .null) := by
  obtain ⟨hdecided, -, -⟩ := list_order_of_first_difference [.int 1, .float 2.0, .null]
    [.bool true, .int 3, .null]
  obtain ⟨-, hfails, -⟩ := list_order_of_first_difference [.int 1, .list [.null], .int 2]
    [.int 1, .list [.null], .int 3]
  have hfirst : List.Forall₂ (fun a b : Value => a.equal b = true) [.int 1] [.bool true] :=
    .cons (by decide +kernel) .nil
  have hpart : firstUnorderedIn (equalPart [.int 1, .float 2.0, .null]
      [.bool true, .int 3, .null]) = none := by decide +kernel
  have hordered := firstUnorderedIn_eq_none_iff.mp hpart
  refine ⟨?_, hfails .null (by decide +kernel)⟩
  have h := (hdecided fun item hmem => (firstUnordered_eq_none_iff item).mp (hordered item hmem))
  exact (h.unequal [.int 1] [.bool true] (.float 2.0) (.int 3) _ _ rfl rfl hfirst
    (by decide +kernel)).trans (by decide +kernel)

/-- A list with a null is equal to itself, and not compared with itself. -/
theorem not_decidedAtDifference_of_null :
    (list [.null]).equal (.list [.null]) = true ∧
      (list [.null]).compare (.list [.null]) = .error (.notOrdered .null .null) ∧
      ¬DecidedAtDifference [.null] [.null] := by
  refine ⟨rfl, rfl, fun h => ?_⟩
  exact nomatch h.longer [.null] [] rfl (.cons rfl .nil)

end Value

end CorpusQuery
