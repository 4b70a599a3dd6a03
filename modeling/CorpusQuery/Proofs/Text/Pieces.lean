import CorpusQuery.Text.Pieces
import Mathlib.Data.List.Infix

/-!
# Pieces of texts

Splitting at a separator is the `splitOn` of lists, so nothing is lost and a separator between two
texts splits them apart. Cutting at a pattern is cutting at its first occurrence: the pattern is not
in what comes before, not even with its own beginning behind that (`cut?_eq_some_iff`).
-/

namespace CorpusQuery.Text

/-! ## Splitting -/

theorem splitOn_eq (separator : Char) (s : List Char) :
    splitOn separator s = s.splitOn separator := by
  have hcons (c : Char) {words : List (List Char)} (hwords : words ≠ []) :
      consWord c words = words.modifyHead (List.cons c) := by
    cases words with
    | nil => exact absurd rfl hwords
    | cons word words => rfl
  induction s with
  | nil => rfl
  | cons c s ih =>
    rw [List.splitOn_cons_eq_if_modifyHead, ← ih, ← hcons c (ih ▸ List.splitOn_ne_nil _ _)]
    simp only [splitOn, List.foldr_cons, beq_iff_eq]

theorem splitOn_append (separator : Char) (s rest : List Char) :
    splitOn separator (s ++ separator :: rest) = splitOn separator s ++ splitOn separator rest := by
  simp only [splitOn_eq, List.splitOn_append_cons_self]

/-- What comes before the first separator is a piece. -/
theorem splitOn_append_cons {separator : Char} {word : List Char} (h : separator ∉ word)
    (rest : List Char) :
    splitOn separator (word ++ separator :: rest) = word :: splitOn separator rest := by
  rw [splitOn_eq, splitOn_eq, List.splitOn_append_cons_self_of_not_mem h]

/-- The separator is in no piece. -/
theorem not_mem_of_mem_splitOn {separator : Char} {s piece : List Char}
    (h : piece ∈ splitOn separator s) : separator ∉ piece := by
  induction s generalizing piece with
  | nil =>
    rw [splitOn, List.foldr_nil, List.mem_singleton] at h
    exact h ▸ List.not_mem_nil
  | cons c s ih =>
    rw [splitOn_eq, List.splitOn_cons_eq_if_modifyHead, ← splitOn_eq] at h
    split at h
    · rcases List.mem_cons.mp h with rfl | h
      · exact List.not_mem_nil
      · exact ih h
    · next hc =>
      cases hpieces : splitOn separator s with
      | nil => exact absurd (splitOn_eq separator s ▸ hpieces) (List.splitOn_ne_nil _ _)
      | cons first others =>
        rw [hpieces, List.modifyHead_cons] at h
        rcases List.mem_cons.mp h with rfl | h
        · rw [List.mem_cons, not_or]
          exact ⟨fun heq => hc (beq_iff_eq.mpr heq.symm), ih (hpieces ▸ List.mem_cons_self)⟩
        · exact ih (hpieces ▸ List.mem_cons_of_mem _ h)

theorem splitString_ne_nil (separator : Char) (s : String) : splitString separator s ≠ [] := by
  rw [splitString, splitOn_eq, ne_eq, List.map_eq_nil_iff]
  exact List.splitOn_ne_nil _ _

theorem not_mem_of_mem_splitString {separator : Char} {s piece : String}
    (h : piece ∈ splitString separator s) : separator ∉ piece.toList := by
  obtain ⟨piece, hpiece, rfl⟩ := List.mem_map.mp h
  rw [String.toList_ofList]
  exact not_mem_of_mem_splitOn hpiece

/-- Nothing is lost in splitting: the pieces with the separator between them are the text. -/
theorem intercalate_splitString (separator : Char) (s : String) :
    String.intercalate (String.ofList [separator]) (splitString separator s) = s := by
  have hpieces : String.toList ∘ String.ofList = id := funext fun _ => String.toList_ofList
  rw [← String.toList_inj, String.toList_intercalate, splitString, List.map_map, splitOn_eq,
    hpieces, List.map_id, String.toList_ofList]
  exact List.intercalate_splitOn separator

theorem length_splitString (separator : Char) (s : String) :
    (splitString separator s).length = s.toList.count separator + 1 := by
  rw [splitString, List.length_map, splitOn_eq]
  induction s.toList with
  | nil => rfl
  | cons c s ih =>
    rw [List.splitOn_cons_eq_if_modifyHead, List.count_cons]
    split
    · rw [List.length_cons, ih]
    · rw [List.length_modifyHead, ih, Nat.add_zero]

/-- Words are got back from a text in which they are joined exactly if the separator is in none of
them, and there is one. -/
theorem splitString_intercalate_iff {separator : Char} {words : List String} :
    splitString separator (String.intercalate (String.ofList [separator]) words) = words ↔
      words ≠ [] ∧ ∀ word ∈ words, separator ∉ word.toList := by
  constructor
  · intro h
    refine ⟨h ▸ splitString_ne_nil _ _, fun word hword => ?_⟩
    rw [← h] at hword
    exact not_mem_of_mem_splitString hword
  · rintro ⟨hne, hwords⟩
    have hpieces : String.ofList ∘ String.toList = id := funext fun _ => String.ofList_toList
    have hletters : ∀ word ∈ words.map String.toList, separator ∉ word := by
      simpa only [List.forall_mem_map] using hwords
    rw [splitString, String.toList_intercalate, String.toList_ofList, splitOn_eq,
      List.splitOn_intercalate separator hletters (mt List.map_eq_nil_iff.mp hne), List.map_map,
      hpieces, List.map_id]

/-! ## Cutting -/

variable {pattern s before after : List Char}

theorem after?_of_not_start (h : ¬pattern <+: s) : after? pattern s = none := by
  cases hafter : after? pattern s with
  | none => rfl
  | some rest => exact absurd ⟨rest, (after?_eq_some_iff.mp hafter).symm⟩ h

/-- What has been passed is put in front of what is cut off. -/
theorem cutFrom?_eq (pattern passed rest : List Char) :
    cutFrom? pattern passed rest =
      (cut? pattern rest).map fun found => (passed.reverse ++ found.1, found.2) := by
  induction rest generalizing passed with
  | nil =>
    unfold cut? cutFrom?
    cases after? pattern [] with
    | none => rfl
    | some after => simp
  | cons c rest ih =>
    unfold cut? cutFrom?
    cases after? pattern (c :: rest) with
    | none =>
      dsimp only
      rw [ih (c :: passed), ih [c], Option.map_map]
      congr 1
      funext found
      simp
    | some after => simp

theorem cut?_append (pattern after : List Char) :
    cut? pattern (pattern ++ after) = some ([], after) := by
  unfold cut? cutFrom?
  rw [after?_eq_some_iff.mpr rfl]
  rfl

theorem cut?_cons {c : Char} (h : ¬pattern <+: c :: s) :
    cut? pattern (c :: s) = (cut? pattern s).map fun found => (c :: found.1, found.2) := by
  rw [cut?, cutFrom?, after?_of_not_start h]
  exact cutFrom?_eq pattern [c] s

/-- A pattern is looked for in vain exactly in the texts without it. -/
theorem cut?_eq_none_iff (hne : pattern ≠ []) : cut? pattern s = none ↔ ¬pattern <:+: s := by
  induction s with
  | nil =>
    have hnil : ¬pattern <+: [] := fun h => hne (List.prefix_nil.mp h)
    rw [cut?, cutFrom?, after?_of_not_start hnil]
    simp [hne]
  | cons c s ih =>
    rw [List.infix_cons_iff, not_or]
    by_cases hstart : pattern <+: c :: s
    · obtain ⟨after, heq⟩ := hstart
      rw [← heq, cut?_append]
      simp
    · rw [cut?_cons hstart, Option.map_eq_none_iff, ih]
      simp [hstart]

/-- Where a text starts with a pattern although the occurrence after `before` is meant, the two
occurrences overlap in less than a whole one. -/
theorem prefix_split_iff (hbefore : before ≠ []) :
    pattern <+: before ++ pattern ++ after ↔ pattern <+: before ++ pattern.dropLast := by
  have hstart : before ++ pattern.dropLast <+: before ++ pattern ++ after :=
    ((List.prefix_append_right_inj before).mpr (List.dropLast_prefix pattern)).trans
      (List.prefix_append _ _)
  refine ⟨fun h => List.prefix_of_prefix_length_le h hstart ?_, fun h => h.trans hstart⟩
  have hpos := List.length_pos_iff.mpr hbefore
  rw [List.length_append, List.length_dropLast]
  omega

/-- A text is cut at the first occurrence of the pattern. -/
theorem cut?_eq_some_iff (hne : pattern ≠ []) :
    cut? pattern s = some (before, after) ↔
      s = before ++ pattern ++ after ∧ ¬pattern <:+: before ++ pattern.dropLast := by
  induction s generalizing before with
  | nil =>
    rw [(cut?_eq_none_iff hne).mpr (by simp [hne])]
    simp [hne]
  | cons c s ih =>
    cases before with
    | nil =>
      have hfirst : ¬pattern <:+: pattern.dropLast := by
        intro h
        have hlength := h.length_le
        have hpos := List.length_pos_iff.mpr hne
        rw [List.length_dropLast] at hlength
        omega
      by_cases hstart : pattern <+: c :: s
      · obtain ⟨rest, heq⟩ := hstart
        rw [← heq, cut?_append]
        simp [hfirst]
      · rw [cut?_cons hstart, Option.map_eq_some_iff]
        constructor
        · rintro ⟨found, -, hfound⟩
          cases hfound
        · rintro ⟨heq, -⟩
          exact absurd ⟨after, heq.symm⟩ hstart
    | cons b before =>
      have hsplit : pattern <:+: b :: before ++ pattern.dropLast ↔
          pattern <+: b :: (before ++ pattern ++ after) ∨
            pattern <:+: before ++ pattern.dropLast := by
        have hstart := @prefix_split_iff pattern (b :: before) after (List.cons_ne_nil b before)
        exact List.infix_cons_iff.trans (or_congr_left hstart.symm)
      rw [hsplit, List.cons_append, List.cons_append, List.cons.injEq]
      by_cases hstart : pattern <+: c :: s
      · obtain ⟨rest, heq⟩ := hstart
        rw [← heq, cut?_append]
        constructor
        · intro h
          cases h
        · rintro ⟨⟨rfl, rfl⟩, hfirst⟩
          exact absurd (.inl ⟨rest, heq⟩) hfirst
      · rw [cut?_cons hstart, Option.map_eq_some_iff]
        constructor
        · rintro ⟨⟨before, after⟩, hcut, hfound⟩
          cases hfound
          obtain ⟨rfl, hfirst⟩ := ih.mp hcut
          exact ⟨⟨rfl, rfl⟩, not_or.mpr ⟨hstart, hfirst⟩⟩
        · rintro ⟨⟨rfl, rfl⟩, hfirst⟩
          exact ⟨(before, after), ih.mpr ⟨rfl, (not_or.mp hfirst).2⟩, rfl⟩

end CorpusQuery.Text
