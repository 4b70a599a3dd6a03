import CorpusQuery.Markdown
import CorpusQuery.Proofs.Text.Lines
import Mathlib.Data.List.TakeWhile

/-!
# Taking the front matter off

A text with front matter is a line that opens the block, the lines of the block, the first line
that closes it, and the body (`Fenced`). There is one way at most to see a text so
(`Fenced.unique`). The block is taken off the texts that can be seen so, and nothing else of them is
lost; any other text is all body (`front_matter_split_exact`).
-/

namespace CorpusQuery.Markdown

open Text

variable {s t opening block closing body line : List Char}

/-- What is left of a text without the byte order mark at its start, if it has one there. -/
inductive Unmarked : List Char → List Char → Prop
  | mark {c : Char} (h : c.toNat = 0xFEFF) (t : List Char) : Unmarked (c :: t) t
  | plain {t : List Char} (h : ∀ c ∈ t.head?, c.toNat ≠ 0xFEFF) : Unmarked t t

/-- The line that opens a block of front matter. -/
inductive Opens : List Char → Prop
  | newline : Opens ['-', '-', '-', '\n']
  | returned : Opens ['-', '-', '-', '\r', '\n']

/-- A line that closes a block of front matter, with any carriage returns and newlines at its
end. -/
inductive Closes : List Char → Prop
  | intro {content ends : List Char} (content_eq : content = ['-', '-', '-'] ∨
      content = ['.', '.', '.']) (ends_eq : ∀ c ∈ ends, c = '\r' ∨ c = '\n') :
    Closes (content ++ ends)

/-- A text with front matter: an opening line, a block of whole lines, none of which closes it, a
line that does, and the body. -/
structure Fenced (text opening block closing body : List Char) : Prop where
  text_eq : text = opening ++ block ++ closing ++ body
  opens : Opens opening
  line : LineAt block closing body
  closes : Closes closing
  open_before : ∀ before line after, block = before ++ line ++ after →
    LineAt before line after → ¬Closes line

/-! ## The two ends of a block -/

theorem unmarked_dropMark (s : List Char) : Unmarked s (dropMark s) := by
  cases s with
  | nil => exact .plain fun c hc => nomatch hc
  | cons c rest =>
    rw [dropMark]
    split
    · next hc => exact .mark hc rest
    · next hc =>
      refine .plain fun first hfirst => ?_
      rw [List.head?_cons, Option.mem_some_iff] at hfirst
      exact hfirst ▸ hc

theorem afterOpening?_eq_some_iff {rest : List Char} :
    afterOpening? t = some rest ↔ ∃ opening, Opens opening ∧ t = opening ++ rest := by
  constructor
  · intro h
    unfold afterOpening? at h
    split at h
    · cases h
      exact ⟨_, .newline, rfl⟩
    · cases h
      exact ⟨_, .returned, rfl⟩
    · cases h
  · rintro ⟨opening, hopens, rfl⟩
    cases hopens <;> rfl

/-- A text starts with one opening line at most. -/
theorem Opens.unique {other rest rest' : List Char} (h : Opens opening) (hother : Opens other)
    (heq : opening ++ rest = other ++ rest') : opening = other ∧ rest = rest' := by
  cases h <;> cases hother <;> simp_all

theorem isLineEnd_iff {c : Char} : isLineEnd c = true ↔ c = '\r' ∨ c = '\n' := by
  simp [isLineEnd]

theorem isClosing_iff : isClosing line = true ↔ Closes line := by
  have hparts : line = (line.reverse.dropWhile isLineEnd).reverse ++
      (line.reverse.takeWhile isLineEnd).reverse := by
    rw [← List.reverse_append, List.takeWhile_append_dropWhile, List.reverse_reverse]
  unfold isClosing
  rw [Bool.or_eq_true, beq_iff_eq, beq_iff_eq]
  constructor
  · intro hcontent
    rw [hparts]
    refine .intro hcontent fun c hc => ?_
    exact isLineEnd_iff.mp (List.mem_takeWhile_imp (List.mem_reverse.mp hc))
  · rintro ⟨hcontent, hends⟩
    have hskip : ∀ c ∈ (_ : List Char).reverse, isLineEnd c = true :=
      fun c hc => isLineEnd_iff.mpr (hends c (List.mem_reverse.mp hc))
    rw [List.reverse_append, List.dropWhile_append_of_pos hskip]
    rcases hcontent with rfl | rfl
    · exact .inl rfl
    · exact .inr rfl

/-! ## Splitting -/

theorem splitFrontMatterChars_eq (s : List Char) :
    splitFrontMatterChars s =
      match afterOpening? (dropMark s) with
      | none => (none, dropMark s)
      | some rest =>
        match (linesWithEnds rest).dropWhile (fun line => !isClosing line) with
        | [] => (none, dropMark s)
        | _ :: others =>
          (some ((linesWithEnds rest).takeWhile fun line => !isClosing line).flatten,
            others.flatten) := by
  have hdrop (lines : List (List Char)) :
      lines.drop (lines.takeWhile fun line => !isClosing line).length =
        lines.dropWhile fun line => !isClosing line := by
    calc lines.drop (lines.takeWhile fun line => !isClosing line).length
      _ = ((lines.takeWhile fun line => !isClosing line) ++
            lines.dropWhile fun line => !isClosing line).drop
              (lines.takeWhile fun line => !isClosing line).length := by
          rw [List.takeWhile_append_dropWhile]
      _ = lines.dropWhile fun line => !isClosing line := List.drop_left
  unfold splitFrontMatterChars
  cases hopening : afterOpening? (dropMark s) with
  | none => simp only [hopening]
  | some rest =>
    cases hrest : (linesWithEnds rest).dropWhile fun line => !isClosing line with
    | nil => simp only [hopening, hdrop, hrest]
    | cons line others => simp only [hopening, hdrop, hrest]

/-- In a text with front matter the lines of the block are those before the first closing one. -/
theorem Fenced.lines (h : Fenced t opening block closing body) :
    (linesWithEnds (block ++ closing ++ body)).takeWhile (fun line => !isClosing line) =
        linesWithEnds block ∧
      (linesWithEnds (block ++ closing ++ body)).dropWhile (fun line => !isClosing line) =
        closing :: linesWithEnds body := by
  have hblock : ∀ line ∈ linesWithEnds block, (!isClosing line) = true := by
    intro line hmem
    obtain ⟨before, after, hblock, hline⟩ := mem_linesWithEnds_iff.mp hmem
    rw [Bool.not_eq_true', ← Bool.not_eq_true, isClosing_iff]
    exact h.open_before before line after hblock hline
  have hclosing : isClosing closing = true := isClosing_iff.mpr h.closes
  rw [linesWithEnds_of_lineAt h.line, List.takeWhile_append_of_pos hblock,
    List.dropWhile_append_of_pos hblock]
  simp [hclosing]

/-- The block is taken off a text that has one. -/
theorem Fenced.splitFrontMatterChars_eq (h : Fenced (dropMark s) opening block closing body) :
    splitFrontMatterChars s = (some block, body) := by
  have hopening : afterOpening? (dropMark s) = some (block ++ closing ++ body) :=
    afterOpening?_eq_some_iff.mpr ⟨opening, h.opens, by simp [h.text_eq]⟩
  rw [Markdown.splitFrontMatterChars_eq, hopening]
  simp only [h.lines, flatten_linesWithEnds]

/-- A text that a block is taken off has that block. -/
theorem fenced_of_splitFrontMatterChars (h : splitFrontMatterChars s = (some block, body)) :
    ∃ opening closing, Fenced (dropMark s) opening block closing body := by
  rw [splitFrontMatterChars_eq] at h
  split at h
  · cases h
  · next rest hopening =>
    obtain ⟨opening, hopens, htext⟩ := afterOpening?_eq_some_iff.mp hopening
    split at h
    · cases h
    · next closing others hdrop =>
      have hlines := List.takeWhile_append_dropWhile (p := fun line => !isClosing line)
        (l := linesWithEnds rest)
      have hopen : ∀ line ∈ (linesWithEnds rest).takeWhile (fun line => !isClosing line),
          isClosing line = false := fun line hmem => by simpa using List.mem_takeWhile_imp hmem
      have hclosing : isClosing closing = true := by
        have hfirst := List.head?_dropWhile_not (fun line => !isClosing line) (linesWithEnds rest)
        rw [hdrop] at hfirst
        simpa using hfirst
      rw [hdrop] at hlines
      obtain ⟨hblock, hbody⟩ := Prod.mk.inj h
      rw [Option.some.injEq] at hblock
      subst hblock hbody
      generalize (linesWithEnds rest).takeWhile (fun line => !isClosing line) = lines at *
      have hare : AreLines (lines ++ closing :: others) := hlines ▸ areLines_linesWithEnds rest
      refine ⟨opening, closing, ?_, hopens, hare.lineAt, isClosing_iff.mp hclosing,
        fun before line after heq hline => ?_⟩
      · rw [htext, ← flatten_linesWithEnds rest, ← hlines]
        simp
      · have hmem := mem_linesWithEnds_iff.mpr ⟨before, after, heq, hline⟩
        rw [hare.of_append.linesWithEnds_flatten] at hmem
        rw [← isClosing_iff, hopen line hmem]
        exact Bool.false_ne_true

theorem Fenced.unique {opening' block' closing' body' : List Char}
    (h : Fenced t opening block closing body) (h' : Fenced t opening' block' closing' body') :
    opening = opening' ∧ block = block' ∧ closing = closing' ∧ body = body' := by
  have htexts := h.text_eq.symm.trans h'.text_eq
  simp only [List.append_assoc] at htexts
  obtain ⟨hopening, hrest⟩ := h.opens.unique h'.opens htexts
  simp only [← List.append_assoc] at hrest
  obtain ⟨htake, hdrop⟩ := h.lines
  obtain ⟨htake', hdrop'⟩ := h'.lines
  have hblocks : linesWithEnds block = linesWithEnds block' := by rw [← htake, hrest, htake']
  have hends : closing :: linesWithEnds body = closing' :: linesWithEnds body' := by
    rw [← hdrop, hrest, hdrop']
  obtain ⟨hclosing, hbodies⟩ := List.cons.inj hends
  refine ⟨hopening, ?_, hclosing, ?_⟩
  · rw [← flatten_linesWithEnds block, hblocks, flatten_linesWithEnds]
  · rw [← flatten_linesWithEnds body, hbodies, flatten_linesWithEnds]

theorem splitFrontMatterChars_eq_some_iff :
    splitFrontMatterChars s = (some block, body) ↔
      ∃ opening closing, Fenced (dropMark s) opening block closing body :=
  ⟨fenced_of_splitFrontMatterChars, fun ⟨_, _, h⟩ => h.splitFrontMatterChars_eq⟩

/-- A text that no block is taken off is left as it is, but for a byte order mark. -/
theorem splitFrontMatterChars_eq_none_iff :
    splitFrontMatterChars s = (none, dropMark s) ↔
      ¬∃ opening block closing body, Fenced (dropMark s) opening block closing body := by
  constructor
  · rintro hnone ⟨opening, block, closing, body, h⟩
    rw [h.splitFrontMatterChars_eq] at hnone
    cases hnone
  · intro hother
    cases hsplit : splitFrontMatterChars s with
    | mk found body =>
      cases found with
      | some block =>
        obtain ⟨opening, closing, h⟩ := fenced_of_splitFrontMatterChars hsplit
        exact absurd ⟨opening, block, closing, body, h⟩ hother
      | none =>
        rw [splitFrontMatterChars_eq] at hsplit
        split at hsplit
        · exact hsplit.symm
        · split at hsplit
          · exact hsplit.symm
          · cases hsplit

theorem splitFrontMatter_eq_iff {text body : String} {found : Option String} :
    splitFrontMatter text = (found, body) ↔
      splitFrontMatterChars text.toList = (found.map String.toList, body.toList) := by
  unfold splitFrontMatter
  constructor
  · intro h
    cases hchars : splitFrontMatterChars text.toList with
    | mk block rest =>
      rw [hchars] at h
      cases h
      simp [Function.comp_def]
  · intro h
    rw [h]
    simp [Function.comp_def]

/-- Front matter is taken off exactly, and nothing is lost. But for a byte order mark at its start a
text is given back as block and body just if it is an opening line, the block, a closing line and
the body, where the block is made of whole lines, none of which closes it. There is one way at most
to see a text so, and a text that cannot be seen so is all body. -/
theorem front_matter_split_exact (text : String) :
    ∃ t, Unmarked text.toList t ∧
      (∀ block body : String, splitFrontMatter text = (some block, body) ↔
        ∃ opening closing, Fenced t opening block.toList closing body.toList) ∧
      (∀ opening block closing body opening' block' closing' body',
        Fenced t opening block closing body → Fenced t opening' block' closing' body' →
        opening = opening' ∧ block = block' ∧ closing = closing' ∧ body = body') ∧
      (splitFrontMatter text = (none, String.ofList t) ↔
        ¬∃ opening block closing body, Fenced t opening block closing body) := by
  refine ⟨dropMark text.toList, unmarked_dropMark text.toList, fun block body => ?_,
    fun _ _ _ _ _ _ _ _ h h' => h.unique h', ?_⟩
  · exact splitFrontMatter_eq_iff.trans splitFrontMatterChars_eq_some_iff
  · rw [splitFrontMatter_eq_iff, String.toList_ofList]
    exact splitFrontMatterChars_eq_none_iff

/-- A text with a mark at its start, lines in its block that only look like closing ones, and one in
its body. -/
def noteText : String := "\uFEFF---\r\na: 1\n---b\n ...\n---\r\nrest\n...\n"

theorem front_matter_split_exact_of_note :
    ∃ t opening closing, Unmarked noteText.toList t ∧
      Fenced t opening "a: 1\n---b\n ...\n".toList closing "rest\n...\n".toList ∧
      ∀ opening' block' closing' body', Fenced t opening' block' closing' body' →
        block' = "a: 1\n---b\n ...\n".toList := by
  obtain ⟨t, hmark, hsplit, hunique, -⟩ := front_matter_split_exact noteText
  obtain ⟨opening, closing, h⟩ :=
    (hsplit "a: 1\n---b\n ...\n" "rest\n...\n").mp (by decide +kernel)
  exact ⟨t, opening, closing, hmark, h, fun _ _ _ _ h' => (hunique _ _ _ _ _ _ _ _ h' h).2.1⟩

end CorpusQuery.Markdown
