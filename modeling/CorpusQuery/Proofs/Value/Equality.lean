import CorpusQuery.Proofs.Value.Places

/-!
# Equality of values

Equality of values is symmetric and transitive, and the values that are not equal to themselves are
those with a NaN somewhere in them (`equal_partial_equivalence`). Truth values, integers and doubles
are equal if their doubles are, and two doubles are equal if they are the same number, where the
sign of a zero does not count (`Double.beq_iff`). Lists and maps are equal place by place
(`equal_list_iff`, `equal_map_iff`), so the laws hold of them if they hold of what they are made of.
-/

namespace CorpusQuery

/-! ## Doubles -/

namespace Double

open Float.Model Float.Model.UnpackedFloat

variable {x y z : Float}

/-- A number without the sign that a zero has. -/
def withoutZeroSign : UnpackedFloat → UnpackedFloat
  | .zero _ => .zero .positive
  | x => x

theorem compare_eq_some_eq_iff {x y : UnpackedFloat} :
    x.compare y = some .eq ↔ x.isNaN = false ∧ withoutZeroSign x = withoutZeroSign y := by
  have hdigits {m n : Nat} {e f : Int} :
      (compare e f).then (compare m n) = .eq ↔ m = n ∧ e = f := by
    rw [Ordering.then_eq_eq, Int.compare_eq_eq, Nat.compare_eq_eq, and_comm]
  have hsigns (s s' : Sign) : compare s s' = .eq ↔ s = s' := by
    have hself (s : Sign) : compare s s = .eq := by cases s <;> rfl
    have hless : compare Sign.negative .positive = .lt := rfl
    have hmore : compare Sign.positive .negative = .gt := rfl
    cases s <;> cases s' <;> simp [hself, hless, hmore]
  cases x with
  | notANumber => cases y <;> simp [UnpackedFloat.compare, UnpackedFloat.isNaN]
  | infinity s =>
    cases s <;> cases y with
    | infinity s' =>
      simp [UnpackedFloat.compare, UnpackedFloat.isNaN, withoutZeroSign, hsigns]
    | _ => simp [UnpackedFloat.compare, UnpackedFloat.isNaN, withoutZeroSign]
  | zero s =>
    cases y with
    | infinity s' => cases s' <;> simp [UnpackedFloat.compare, withoutZeroSign]
    | finite s' m e h => cases s' <;> simp [UnpackedFloat.compare, withoutZeroSign]
    | _ => simp [UnpackedFloat.compare, UnpackedFloat.isNaN, withoutZeroSign]
  | finite s m e h =>
    cases s <;> cases y with
    | finite s' m' e' h' =>
      cases s' <;> simp [UnpackedFloat.compare, UnpackedFloat.isNaN, withoutZeroSign, hdigits]
    | infinity s' => cases s' <;> simp [UnpackedFloat.compare, withoutZeroSign]
    | _ => simp [UnpackedFloat.compare, withoutZeroSign]

/-- Two doubles are equal if they are the same number. -/
theorem beq_iff :
    (x == y) = true ↔ x.isNaN = false ∧
      withoutZeroSign x.toModel.unpack = withoutZeroSign y.toModel.unpack := by
  rw [beq_eq, beq_iff_eq, compare_eq_some_eq_iff]
  rfl

theorem isNaN_withoutZeroSign (x : UnpackedFloat) : (withoutZeroSign x).isNaN = x.isNaN := by
  cases x <;> rfl

theorem isNaN_eq_of_beq (h : (x == y) = true) : y.isNaN = false := by
  obtain ⟨hx, heq⟩ := beq_iff.mp h
  have hnan := congrArg UnpackedFloat.isNaN heq
  rw [isNaN_withoutZeroSign, isNaN_withoutZeroSign] at hnan
  exact hnan.symm.trans hx

theorem beq_symm (h : (x == y) = true) : (y == x) = true :=
  beq_iff.mpr ⟨isNaN_eq_of_beq h, (beq_iff.mp h).2.symm⟩

theorem beq_trans (hxy : (x == y) = true) (hyz : (y == z) = true) : (x == z) = true :=
  beq_iff.mpr ⟨(beq_iff.mp hxy).1, (beq_iff.mp hxy).2.trans (beq_iff.mp hyz).2⟩

theorem beq_self_iff : (x == x) = true ↔ x.isNaN = false := by
  rw [beq_iff, and_iff_left rfl]

end Double

namespace Value

variable {a b c : Value} {x : Float} {items others : List Value}
  {entries otherEntries : List (String × Value)}

/-- A value that is neither a number nor made of other values. -/
inductive IsAtom : Value → Prop
  | null : IsAtom .null
  | str (s : String) : IsAtom (.str s)
  | document (path : String) : IsAtom (.document path)

/-- A value with a NaN in it, at any depth. -/
inductive HoldsNaN : Value → Prop
  | float {x : Float} (h : x.isNaN = true) : HoldsNaN (.float x)
  | item {items : List Value} {item : Value} (hmem : item ∈ items) (h : HoldsNaN item) :
    HoldsNaN (.list items)
  | entry {entries : List (String × Value)} {entry : String × Value} (hmem : entry ∈ entries)
    (h : HoldsNaN entry.2) : HoldsNaN (.map entries)

/-- What holds of the items of a list and of the values in a map, and so of the list and the map,
holds of all values. -/
@[elab_as_elim]
theorem induction {motive : Value → Prop}
    (number : ∀ v x, v.number? = some x → motive v)
    (atom : ∀ v, IsAtom v → motive v)
    (list : ∀ items, (∀ item ∈ items, motive item) → motive (.list items))
    (map : ∀ entries, (∀ entry ∈ entries, motive entry.2) → motive (.map entries)) (v : Value) :
    motive v := by
  refine @Value.rec motive (fun items => ∀ item ∈ items, motive item)
    (fun entries => ∀ entry ∈ entries, motive entry.2) (fun entry => motive entry.2)
    (atom _ .null) (fun _ => number _ _ rfl) (fun _ => number _ _ rfl) (fun _ => number _ _ rfl)
    (fun s => atom _ (.str s)) list map (fun path => atom _ (.document path)) ?_ ?_ ?_ ?_ ?_ v
  case refine_1 | refine_3 => exact fun _ hmem => nomatch hmem
  case refine_2 | refine_4 =>
    intro first rest hfirst hrest value hmem
    rcases List.mem_cons.mp hmem with rfl | hmem
    · exact hfirst
    · exact hrest value hmem
  case refine_5 => exact fun _ _ h => h

/-! ## Equality by the kind of value -/

theorem equal_number_iff (h : a.number? = some x) :
    a.equal b = true ↔ ∃ y, b.number? = some y ∧ (x == y) = true := by
  cases a <;> cases h <;> cases b <;> simp [equal, number?]

theorem equal_atom_iff (h : IsAtom a) : a.equal b = true ↔ a = b := by
  cases h <;> cases b <;> simp [equal, number?]

theorem equalLists_iff :
    equalLists items others = true ↔ List.Forall₂ (fun a b => a.equal b = true) items others := by
  induction items generalizing others with
  | nil => cases others <;> simp [equalLists]
  | cons item items ih => cases others <;> simp [equalLists, ih]

theorem equalEntries_iff :
    equalEntries entries otherEntries = true ↔
      List.Forall₂ (fun a b => a.1 = b.1 ∧ a.2.equal b.2 = true) entries otherEntries := by
  induction entries generalizing otherEntries with
  | nil => cases otherEntries <;> simp [equalEntries]
  | cons entry entries ih => cases otherEntries <;> simp [equalEntries, ih]

/-- A list is equal to the lists that have equal items in the same places. -/
theorem equal_list_iff :
    (list items).equal b = true ↔
      ∃ others, b = .list others ∧ List.Forall₂ (fun a b => a.equal b = true) items others := by
  cases b <;> simp [equal, number?, equalLists_iff]

/-- A map is equal to the maps that have equal values under the same keys. -/
theorem equal_map_iff :
    (map entries).equal b = true ↔
      ∃ others, b = .map others ∧
        List.Forall₂ (fun a b => a.1 = b.1 ∧ a.2.equal b.2 = true) entries others := by
  cases b <;> simp [equal, number?, equalEntries_iff]

/-! ## The laws -/

theorem forall₂_symm {α : Type} {R : α → α → Prop} {xs ys : List α}
    (hsymm : ∀ x ∈ xs, ∀ y, R x y → R y x) (h : List.Forall₂ R xs ys) : List.Forall₂ R ys xs :=
  (((List.forall₂_and_left _ _).mpr ⟨hsymm, h⟩).imp fun _ y hxy => hxy.1 y hxy.2).flip

theorem forall₂_trans {α : Type} {R : α → α → Prop} {xs ys zs : List α}
    (htrans : ∀ x ∈ xs, ∀ y z, R x y → R y z → R x z) (hxy : List.Forall₂ R xs ys)
    (hyz : List.Forall₂ R ys zs) : List.Forall₂ R xs zs := by
  induction hxy generalizing zs with
  | nil => exact hyz
  | @cons x y xs ys hfirst _ ih =>
    cases hyz with
    | @cons _ z _ zs hnext hrest =>
      exact .cons (htrans x List.mem_cons_self y z hfirst hnext)
        (ih (fun x' hx' => htrans x' (List.mem_cons_of_mem x hx')) hrest)

theorem equal_symm (h : a.equal b = true) : b.equal a = true := by
  induction a using induction generalizing b with
  | number v x hx =>
    obtain ⟨y, hy, hxy⟩ := (equal_number_iff hx).mp h
    exact (equal_number_iff hy).mpr ⟨x, hx, Double.beq_symm hxy⟩
  | atom v hv =>
    obtain rfl := (equal_atom_iff hv).mp h
    exact h
  | list items ih =>
    obtain ⟨others, rfl, hitems⟩ := equal_list_iff.mp h
    exact equal_list_iff.mpr ⟨items, rfl, forall₂_symm (fun x hx y => ih x hx) hitems⟩
  | map entries ih =>
    obtain ⟨others, rfl, hentries⟩ := equal_map_iff.mp h
    refine equal_map_iff.mpr ⟨entries, rfl, forall₂_symm (fun x hx y hxy => ?_) hentries⟩
    exact ⟨hxy.1.symm, ih x hx hxy.2⟩

theorem equal_comm (a b : Value) : a.equal b = b.equal a := by
  rw [Bool.eq_iff_iff]
  exact ⟨equal_symm, equal_symm⟩

theorem equal_trans (hab : a.equal b = true) (hbc : b.equal c = true) : a.equal c = true := by
  induction a using induction generalizing b c with
  | number v x hx =>
    obtain ⟨y, hy, hxy⟩ := (equal_number_iff hx).mp hab
    obtain ⟨z, hz, hyz⟩ := (equal_number_iff hy).mp hbc
    exact (equal_number_iff hx).mpr ⟨z, hz, Double.beq_trans hxy hyz⟩
  | atom v hv =>
    obtain rfl := (equal_atom_iff hv).mp hab
    exact hbc
  | list items ih =>
    obtain ⟨others, rfl, hitems⟩ := equal_list_iff.mp hab
    obtain ⟨rest, rfl, hothers⟩ := equal_list_iff.mp hbc
    refine equal_list_iff.mpr ⟨rest, rfl, forall₂_trans (fun x hx y z => ?_) hitems hothers⟩
    exact ih x hx
  | map entries ih =>
    obtain ⟨others, rfl, hentries⟩ := equal_map_iff.mp hab
    obtain ⟨rest, rfl, hothers⟩ := equal_map_iff.mp hbc
    refine equal_map_iff.mpr
      ⟨rest, rfl, forall₂_trans (fun x hx y z hxy hyz => ?_) hentries hothers⟩
    exact ⟨hxy.1.trans hyz.1, ih x hx hxy.2 hyz.2⟩

/-! ## NaN -/

theorem not_holdsNaN_atom (h : IsAtom a) : ¬HoldsNaN a := by
  rintro hnan
  cases hnan <;> cases h

/-- Truth values and integers are doubles other than NaN. -/
theorem holdsNaN_number_iff (h : a.number? = some x) : HoldsNaN a ↔ x.isNaN = true := by
  cases a with
  | float y =>
    cases h
    exact ⟨fun hnan => by cases hnan; assumption, .float⟩
  | int i | bool i =>
    cases h
    simp only [(holds_floatOfInt _).isNaN_eq, Bool.false_eq_true, iff_false]
    exact fun hnan => nomatch hnan
  | _ => cases h

theorem holdsNaN_list_iff : HoldsNaN (list items) ↔ ∃ item ∈ items, HoldsNaN item :=
  ⟨fun h => by cases h with | item hmem h => exact ⟨_, hmem, h⟩, fun ⟨_, hmem, h⟩ => .item hmem h⟩

theorem holdsNaN_map_iff : HoldsNaN (map entries) ↔ ∃ entry ∈ entries, HoldsNaN entry.2 :=
  ⟨fun h => by cases h with | entry hmem h => exact ⟨_, hmem, h⟩, fun ⟨_, hmem, h⟩ => .entry hmem h⟩

theorem equal_self_iff (a : Value) : a.equal a = true ↔ ¬HoldsNaN a := by
  induction a using induction with
  | number v x hx =>
    rw [equal_number_iff hx, holdsNaN_number_iff hx, Bool.not_eq_true, ← Double.beq_self_iff]
    simp [hx]
  | atom v hv => simp [equal_atom_iff hv, not_holdsNaN_atom hv]
  | list items ih =>
    have hself : (list items).equal (list items) = true ↔
        ∀ item ∈ items, item.equal item = true := by
      simp [equal_list_iff, List.forall₂_same]
    rw [hself, holdsNaN_list_iff, not_exists]
    exact forall_congr' fun item => (forall_congr' (ih item)).trans not_and.symm
  | map entries ih =>
    have hself : (map entries).equal (map entries) = true ↔
        ∀ entry ∈ entries, entry.2.equal entry.2 = true := by
      simp [equal_map_iff, List.forall₂_same]
    rw [hself, holdsNaN_map_iff, not_exists]
    exact forall_congr' fun entry => (forall_congr' (ih entry)).trans not_and.symm

/-- Equality of values is symmetric and transitive, whatever the kinds of the values and however
deep they are nested. A value is equal to itself just if there is no NaN in it at any depth. -/
theorem equal_partial_equivalence :
    (∀ a b : Value, a.equal b = true → b.equal a = true) ∧
      (∀ a b c : Value, a.equal b = true → b.equal c = true → a.equal c = true) ∧
      ∀ a : Value, a.equal a = true ↔ ¬HoldsNaN a :=
  ⟨fun _ _ => equal_symm, fun _ _ _ => equal_trans, equal_self_iff⟩

/-- A list with the numbers one and zero in it, as truth value, integer or double. -/
theorem equal_partial_equivalence_of_nested :
    let truths : Value := .list [.bool true, .map [("k", .float (-0.0))]]
    let integers : Value := .list [.int 1, .map [("k", .int 0)]]
    let doubles : Value := .list [.float 1.0, .map [("k", .bool false)]]
    truths.equal integers = true ∧ integers.equal doubles = true ∧
      truths.equal doubles = true ∧ doubles.equal truths = true ∧
      (list [truths, .float (0.0 / 0.0)]).equal (list [truths, .float (0.0 / 0.0)]) = false := by
  intro truths integers doubles
  have hintegers : truths.equal integers = true := by decide +kernel
  have hdoubles : integers.equal doubles = true := by decide +kernel
  obtain ⟨hsymm, htrans, hself⟩ := equal_partial_equivalence
  have hall := htrans _ _ _ hintegers hdoubles
  refine ⟨hintegers, hdoubles, hall, hsymm _ _ hall, ?_⟩
  rw [← Bool.not_eq_true, hself, not_not]
  exact .item (List.mem_cons_of_mem _ List.mem_cons_self) (.float (by decide +kernel))

end Value

end CorpusQuery
