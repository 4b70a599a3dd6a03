import CorpusQuery.Proofs.View.Headings

/-!
# Rows as maps

A row that is built from the empty one by setting cells is a map that remembers an order: each key
is in it once, at the place where it was set first, with the value that it was set to last. One more
cell that is set changes nothing under the other keys, neither a value nor a place
(`InsertionOrdered.insert`), so this holds after any number of them (`ofInserts_insertionOrdered`).
-/

namespace CorpusQuery.Row

variable {row : Row} {entries : List (String × Value)}

/-- The row in which cells have been set one after the other. -/
def ofInserts (entries : List (String × Value)) : Row :=
  entries.foldl (fun row entry => row.insert entry.1 entry.2) empty

theorem ofInserts_concat (entries : List (String × Value)) (key : String) (value : Value) :
    ofInserts (entries ++ [(key, value)]) = (ofInserts entries).insert key value := by
  rw [ofInserts, List.foldl_concat]
  rfl

/-! ## One more cell -/

/-- A cell under another key stays where it is, as it is. -/
theorem getElem?_insert_of_ne {key other : String} (hne : other ≠ key) (row : Row)
    (value kept : Value) (i : Nat) :
    (row.insert key value).cells[i]? = some (other, kept) ↔
      row.cells[i]? = some (other, kept) := by
  have hcells (cells : List (String × Value)) : ∀ i : Nat,
      (insertCell key value cells)[i]? = some (other, kept) ↔ cells[i]? = some (other, kept) := by
    induction cells with
    | nil =>
      intro i
      cases i with
      | zero => simp [insertCell, Ne.symm hne]
      | succ i => simp [insertCell]
    | cons cell cells ih =>
      intro i
      obtain ⟨k, v⟩ := cell
      rw [insertCell]
      by_cases hkey : k = key
      · subst hkey
        cases i with
        | zero => simp [Ne.symm hne]
        | succ i => simp
      · cases i with
        | zero => simp [hkey]
        | succ i => simp [hkey, ih i]
  exact hcells row.cells i

/-- The cells with different keys are the values that are found under the keys. -/
theorem mem_cells_iff (hdistinct : row.keys.Nodup) {key : String} {value : Value} :
    (key, value) ∈ row.cells ↔ row.get? key = some value := by
  obtain ⟨cells⟩ := row
  change (cells.map (·.1)).Nodup at hdistinct
  change _ ↔ (cells.find? fun cell => cell.1 == key).map (·.2) = some value
  induction cells with
  | nil => simp
  | cons cell cells ih =>
    obtain ⟨k, v⟩ := cell
    obtain ⟨hnew, hrest⟩ := List.nodup_cons.mp hdistinct
    rw [List.mem_cons, Prod.mk.injEq, List.find?_cons]
    by_cases hkey : k = key
    · subst hkey
      have habsent : (k, value) ∉ cells := fun hmem => hnew (List.mem_map.mpr ⟨_, hmem, rfl⟩)
      simp [habsent, eq_comm]
    · have hother : (k == key) = false := beq_false_of_ne hkey
      simpa [hother, Ne.symm hkey] using ih hrest

/-! ## Any number of cells -/

/-- What a row is after cells have been set in it: a map from the keys to the values they were set
to last, with the keys in the order in which they were set first. -/
structure InsertionOrdered (entries : List (String × Value)) (row : Row) : Prop where
  distinct : row.keys.Nodup
  order : row.keys = (entries.map Prod.fst).eraseDups
  size : row.size = (entries.map Prod.fst).toFinset.card
  last : ∀ key, row.get? key = entries.reverse.lookup key
  cells : ∀ key value, (key, value) ∈ row.cells ↔ row.get? key = some value
  kept : ∀ key value other, other ≠ key → (row.insert key value).get? other = row.get? other
  place : ∀ key value other found (i : Nat), other ≠ key →
    ((row.insert key value).cells[i]? = some (other, found) ↔ row.cells[i]? = some (other, found))

/-- The order of the keys and the values under them decide the rest. -/
theorem insertionOrdered_of_keys (horder : row.keys = (entries.map Prod.fst).eraseDups)
    (hlast : ∀ key, row.get? key = entries.reverse.lookup key) :
    InsertionOrdered entries row := by
  have hdistinct : row.keys.Nodup := horder ▸ nodup_eraseDups _
  have hsame : row.keys.toFinset = (entries.map Prod.fst).toFinset := by
    ext key
    rw [horder, List.mem_toFinset, List.mem_toFinset, List.mem_eraseDups]
  have hsize : row.size = row.keys.length := (List.length_map _).symm
  refine ⟨hdistinct, horder, ?_, hlast, fun _ _ => mem_cells_iff hdistinct, ?_, ?_⟩
  · rw [hsize, ← hsame, List.toFinset_card_of_nodup hdistinct]
  · intro key value other hne
    rw [get?_insert, if_neg hne.symm]
  · intro key value other found i hne
    exact getElem?_insert_of_ne hne row value found i

theorem insertionOrdered_empty : InsertionOrdered [] empty :=
  insertionOrdered_of_keys rfl fun _ => rfl

/-- Setting a cell is a step from one such row to another. -/
theorem InsertionOrdered.insert (h : InsertionOrdered entries row) (key : String) (value : Value) :
    InsertionOrdered (entries ++ [(key, value)]) (row.insert key value) := by
  refine insertionOrdered_of_keys ?_ fun other => ?_
  · rw [keys_insert, h.order, List.map_append, List.map_singleton, eraseDups_concat]
    simp only [List.mem_eraseDups]
  · rw [get?_insert, h.last, List.reverse_concat, List.lookup_cons]
    by_cases hkey : key = other
    · rw [if_pos hkey, hkey, beq_self_eq_true]
    · rw [if_neg hkey, beq_false_of_ne (Ne.symm hkey)]

/-- A row that is built by setting cells is a map in the order of the first insertions: its keys are
distinct, there are as many as different keys were set, and under each is the value that was set
last. One more cell leaves all other keys their values and their places. -/
theorem ofInserts_insertionOrdered (entries : List (String × Value)) :
    InsertionOrdered entries (ofInserts entries) := by
  induction entries using List.reverseRecOn with
  | nil => exact insertionOrdered_empty
  | append_singleton entries entry ih =>
    rw [ofInserts_concat]
    exact ih.insert entry.1 entry.2

end CorpusQuery.Row
