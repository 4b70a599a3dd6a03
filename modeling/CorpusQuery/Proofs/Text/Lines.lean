import CorpusQuery.Text.Pieces
import Mathlib.Data.List.Basic

/-!
# Lines of texts

A line of a text is seen from what is beside it (`LineAt`): it starts where a line starts, holds no
newline but at its end, and has one there unless it is the last line. A text is cut into exactly
its lines (`areLines_linesWithEnds`, `linesWithEnds_of_lineAt`), and nothing of it is lost
(`flatten_linesWithEnds`).
-/

namespace CorpusQuery.Text

variable {s before line after : List Char} {lines others rest : List (List Char)}

/-- Whether a line starts after a text: it is empty or ends with a newline. -/
def AtLineStart (before : List Char) : Prop := before = [] ∨ before.getLast? = some '\n'

/-- A line of a text, between what comes before it and what comes after it. Only the last line may
lack a newline at its end. -/
structure LineAt (before line after : List Char) : Prop where
  starts : AtLineStart before
  ne_nil : line ≠ []
  single : '\n' ∉ line.dropLast
  ended : line.getLast? = some '\n' ∨ after = []

/-- The lines of a text, one after the other. -/
inductive AreLines : List (List Char) → Prop
  | nil : AreLines []
  | cons {line : List Char} {rest : List (List Char)} (first : LineAt [] line rest.flatten)
    (others : AreLines rest) : AreLines (line :: rest)

/-! ## Starts of lines -/

theorem atLineStart_append (hne : s ≠ []) : AtLineStart (before ++ s) ↔ AtLineStart s := by
  have happend : before ++ s ≠ [] := List.append_ne_nil_of_right_ne_nil before hne
  simp only [AtLineStart, hne, happend, false_or, List.getLast?_append_of_ne_nil before hne]

theorem AtLineStart.append (hbefore : AtLineStart before) (hs : AtLineStart s) :
    AtLineStart (before ++ s) := by
  rcases eq_or_ne s [] with rfl | hne
  · rwa [List.append_nil]
  · exact (atLineStart_append hne).mpr hs

/-! ## Cutting -/

theorem linesWithEnds_cons (c : Char) (s : List Char) :
    linesWithEnds (c :: s) =
      if c = '\n' then [c] :: linesWithEnds s else consWord c (linesWithEnds s) := rfl

theorem flatten_consWord (c : Char) (words : List (List Char)) :
    (consWord c words).flatten = c :: words.flatten := by
  cases words <;> rfl

/-- Nothing is lost: the lines one after the other are the text. -/
theorem flatten_linesWithEnds (s : List Char) : (linesWithEnds s).flatten = s := by
  induction s with
  | nil => rfl
  | cons c s ih =>
    rw [linesWithEnds_cons]
    split
    · rw [List.flatten_cons, ih, List.singleton_append]
    · rw [flatten_consWord, ih]

theorem linesWithEnds_ne_nil (h : s ≠ []) : linesWithEnds s ≠ [] := by
  intro hnone
  have hflatten := flatten_linesWithEnds s
  rw [hnone, List.flatten_nil] at hflatten
  exact h hflatten.symm

/-- Where a line starts, the lines before and after are found apart from each other. -/
theorem linesWithEnds_append (h : AtLineStart before) (after : List Char) :
    linesWithEnds (before ++ after) = linesWithEnds before ++ linesWithEnds after := by
  induction before with
  | nil => rfl
  | cons c before ih =>
    rw [List.cons_append, linesWithEnds_cons, linesWithEnds_cons]
    rcases eq_or_ne before [] with rfl | hne
    · -- the first part is a newline
      have hc : c = '\n' := by simpa [AtLineStart] using h
      rw [if_pos hc, if_pos hc]
      rfl
    · rw [ih ((@atLineStart_append before [c] hne).mp h)]
      split
      · rfl
      · obtain ⟨first, others, hlines⟩ := List.exists_cons_of_ne_nil (linesWithEnds_ne_nil hne)
        rw [hlines]
        rfl

/-- A text with no newline but at its end is one line. -/
theorem linesWithEnds_single (hne : line ≠ []) (hsingle : '\n' ∉ line.dropLast) :
    linesWithEnds line = [line] := by
  induction line with
  | nil => exact absurd rfl hne
  | cons c line ih =>
    rw [linesWithEnds_cons]
    cases line with
    | nil => split <;> rfl
    | cons next line =>
      rw [List.dropLast_cons_cons, List.mem_cons, not_or] at hsingle
      rw [if_neg (Ne.symm hsingle.1), ih (List.cons_ne_nil next line) hsingle.2]
      rfl

/-- A line of a text is found at its place. -/
theorem linesWithEnds_of_lineAt (h : LineAt before line after) :
    linesWithEnds (before ++ line ++ after) =
      linesWithEnds before ++ line :: linesWithEnds after := by
  rw [List.append_assoc, linesWithEnds_append h.starts]
  congr 1
  rcases h.ended with hend | rfl
  · rw [linesWithEnds_append (.inr hend), linesWithEnds_single h.ne_nil h.single,
      List.singleton_append]
  · rw [List.append_nil, linesWithEnds_single h.ne_nil h.single]
    rfl

/-! ## What is found -/

/-- A text is cut into lines. -/
theorem areLines_linesWithEnds (s : List Char) : AreLines (linesWithEnds s) := by
  induction s with
  | nil => exact .nil
  | cons c s ih =>
    rw [linesWithEnds_cons]
    split
    · next hc =>
      subst hc
      exact .cons ⟨.inl rfl, List.cons_ne_nil _ _, List.not_mem_nil, .inl rfl⟩ ih
    · next hc =>
      generalize linesWithEnds s = lines at ih
      cases ih with
      | nil => exact .cons ⟨.inl rfl, List.cons_ne_nil _ _, List.not_mem_nil, .inr rfl⟩ .nil
      | @cons line rest first others =>
        obtain ⟨next, line, rfl⟩ := List.exists_cons_of_ne_nil first.ne_nil
        refine .cons ⟨.inl rfl, List.cons_ne_nil _ _, ?_, ?_⟩ others
        · rw [List.dropLast_cons_cons, List.mem_cons, not_or]
          exact ⟨Ne.symm hc, first.single⟩
        · rw [List.getLast?_cons_cons]
          exact first.ended

/-- Each of the lines is a line between those before it and those after it. -/
theorem AreLines.lineAt (h : AreLines (others ++ line :: rest)) :
    LineAt others.flatten line rest.flatten := by
  induction others with
  | nil =>
    cases h with
    | cons first _ => exact first
  | cons other others ih =>
    rw [List.cons_append] at h
    cases h with
    | cons first h =>
      have hline := ih h
      refine ⟨.append (.inr (first.ended.resolve_right fun hnone => ?_)) hline.starts,
        hline.ne_nil, hline.single, hline.ended⟩
      rw [List.flatten_append, List.flatten_cons] at hnone
      exact hline.ne_nil (List.append_eq_nil_iff.mp (List.append_eq_nil_iff.mp hnone).2).1

theorem AreLines.of_append (h : AreLines (others ++ rest)) : AreLines others := by
  induction others with
  | nil => exact .nil
  | cons line others ih =>
    rw [List.cons_append] at h
    cases h with
    | cons first h =>
      refine .cons ⟨first.starts, first.ne_nil, first.single, first.ended.imp_right ?_⟩ (ih h)
      rw [List.flatten_append]
      exact fun hnone => (List.append_eq_nil_iff.mp hnone).1

/-- There is one way to cut a text into lines. -/
theorem AreLines.linesWithEnds_flatten (h : AreLines lines) :
    linesWithEnds lines.flatten = lines := by
  induction h with
  | nil => rfl
  | cons first others ih =>
    have hcut := linesWithEnds_of_lineAt first
    rwa [ih] at hcut

/-- The lines that are found are the lines of the text. -/
theorem mem_linesWithEnds_iff :
    line ∈ linesWithEnds s ↔ ∃ before after, s = before ++ line ++ after ∧
      LineAt before line after := by
  constructor
  · intro hmem
    obtain ⟨others, rest, hlines⟩ := List.append_of_mem hmem
    refine ⟨others.flatten, rest.flatten, ?_, (hlines ▸ areLines_linesWithEnds s).lineAt⟩
    rw [← flatten_linesWithEnds s, hlines, List.flatten_append, List.flatten_cons,
      List.append_assoc]
  · rintro ⟨before, after, rfl, hline⟩
    rw [linesWithEnds_of_lineAt hline]
    exact List.mem_append_right _ List.mem_cons_self

end CorpusQuery.Text
