import CorpusQuery.Markdown
import Mathlib.Data.List.TakeWhile

/-!
# Tags in a text

Whether a `#` starts a tag can be seen from the characters beside it (`TagAt`): the one before it
must not glue it, and the tag is the run of tag characters after it. The scan goes over the text
once and holds only the last character and an opened tag. It finds exactly these tags, in the order
of their places (`closed_foldl_step`), so texts with a line break between them have the tags of the
one and then those of the other (`hashtags_local`).
-/

namespace CorpusQuery.Markdown

variable {s : List Char} {c : Char}

/-- A tag after the `#` at a place of a text: the whole run of tag characters there. The `#` is the
first character or comes after one that does not glue it. -/
inductive TagAt (s : List Char) (place : Nat) (tag : List Char) : Prop
  | intro (before after : List Char) (text : s = before ++ '#' :: (tag ++ after))
      (length : before.length = place) (free : ∀ c ∈ before.getLast?, gluesHash c = false)
      (ne_nil : tag ≠ []) (run : ∀ c ∈ tag, isTagChar c = true)
      (ended : ∀ c ∈ after.head?, isTagChar c = false)

/-- A run of tag characters as a list of tags: an empty run is no tag. -/
def asTag (run : List Char) : List (List Char) := if run = [] then [] else [run]

/-- The tags in `rest` with their places. The rest starts at `place`, and `last` is the character
before it. -/
def tagsFrom (last : Option Char) (place : Nat) : List Char → List (Nat × List Char)
  | [] => []
  | c :: rest =>
    (if c = '#' ∧ last.any gluesHash = false then
      (asTag (rest.takeWhile isTagChar)).map (place, ·) else []) ++
      tagsFrom (some c) (place + 1) rest

theorem mem_asTag_iff {run tag : List Char} : tag ∈ asTag run ↔ tag = run ∧ tag ≠ [] := by
  unfold asTag
  split
  · next h => simp [h]
  · next h =>
    rw [List.mem_singleton]
    exact ⟨fun heq => ⟨heq, heq ▸ h⟩, And.left⟩

/-! ## Places -/

/-- A run of tag characters with none behind it is what is taken. -/
theorem takeWhile_run {tag after : List Char} (hrun : ∀ c ∈ tag, isTagChar c = true)
    (hended : ∀ c ∈ after.head?, isTagChar c = false) :
    (tag ++ after).takeWhile isTagChar = tag := by
  rw [List.takeWhile_append_of_pos hrun]
  cases after with
  | nil => exact List.append_nil tag
  | cons next after =>
    rw [List.takeWhile_cons_of_neg (by simpa using hended next), List.append_nil]

theorem any_eq_false_iff {last : Option Char} :
    last.any gluesHash = false ↔ ∀ c ∈ last, gluesHash c = false := by
  cases last <;> simp

/-- The tag at a character is seen from its neighbours. -/
theorem tagAt_length_iff {before rest tag : List Char} :
    TagAt (before ++ c :: rest) before.length tag ↔
      (c = '#' ∧ before.getLast?.any gluesHash = false) ∧
        tag ∈ asTag (rest.takeWhile isTagChar) := by
  rw [mem_asTag_iff]
  constructor
  · rintro ⟨before', after, htext, hlength, hfree, hne, hrun, hended⟩
    obtain ⟨rfl, htail⟩ := List.append_inj htext hlength.symm
    obtain ⟨rfl, rfl⟩ := List.cons_eq_cons.mp htail
    exact ⟨⟨rfl, any_eq_false_iff.mpr hfree⟩, (takeWhile_run hrun hended).symm, hne⟩
  · rintro ⟨⟨rfl, hfree⟩, rfl, hne⟩
    refine ⟨before, rest.dropWhile isTagChar, ?_, rfl, any_eq_false_iff.mp hfree, hne,
      fun c hc => List.mem_takeWhile_imp hc, fun c hc => ?_⟩
    · rw [List.takeWhile_append_dropWhile]
    · have h := List.head?_dropWhile_not isTagChar rest
      rw [Option.mem_def.mp hc] at h
      simpa using h

/-- The tags from a place on are the tags of the text that are not before this place. -/
theorem mem_tagsFrom_iff {before tag : List Char} {place : Nat} :
    (place, tag) ∈ tagsFrom before.getLast? before.length s ↔
      before.length ≤ place ∧ TagAt (before ++ s) place tag := by
  induction s generalizing before with
  | nil =>
    refine ⟨fun hmem => absurd hmem List.not_mem_nil, ?_⟩
    rintro ⟨hplace, ⟨before', after, htext, hlength, -⟩⟩
    have htotal := congrArg List.length htext
    simp only [List.append_nil, List.length_append, List.length_cons] at htotal
    omega
  | cons c rest ih =>
    have hnext : tagsFrom (some c) (before.length + 1) rest =
        tagsFrom (before ++ [c]).getLast? (before ++ [c]).length rest := by simp
    rw [tagsFrom, List.mem_append, hnext, ih, List.append_assoc, List.singleton_append,
      List.length_append, List.length_singleton]
    constructor
    · rintro (hmem | ⟨hplace, htag⟩)
      · split at hmem
        · next hopens =>
          obtain ⟨run, hrun, heq⟩ := List.mem_map.mp hmem
          cases heq
          exact ⟨Nat.le_refl _, tagAt_length_iff.mpr ⟨hopens, hrun⟩⟩
        · cases hmem
      · exact ⟨by omega, htag⟩
    · rintro ⟨hplace, htag⟩
      rcases Nat.eq_or_lt_of_le hplace with rfl | hlater
      · obtain ⟨hopens, hrun⟩ := tagAt_length_iff.mp htag
        rw [if_pos hopens]
        exact .inl (List.mem_map.mpr ⟨tag, hrun, rfl⟩)
      · exact .inr ⟨hlater, htag⟩

theorem mem_tagsFrom_start_iff {place : Nat} {tag : List Char} :
    (place, tag) ∈ tagsFrom none 0 s ↔ TagAt s place tag := by
  have hstart : (place, tag) ∈ tagsFrom none 0 s ↔ 0 ≤ place ∧ TagAt s place tag :=
    @mem_tagsFrom_iff s [] tag place
  rw [hstart, and_iff_right (Nat.zero_le place)]

theorem le_of_mem_tagsFrom {last : Option Char} {place : Nat} {found : Nat × List Char}
    (h : found ∈ tagsFrom last place s) : place ≤ found.1 := by
  induction s generalizing last place with
  | nil => cases h
  | cons c rest ih =>
    rw [tagsFrom, List.mem_append] at h
    rcases h with hmem | hmem
    · split at hmem
      · obtain ⟨run, -, rfl⟩ := List.mem_map.mp hmem
        exact Nat.le_refl _
      · cases hmem
    · exact Nat.le_of_succ_le (ih hmem)

/-- The tags come in the order of their places. -/
theorem pairwise_tagsFrom (last : Option Char) (place : Nat) (s : List Char) :
    (tagsFrom last place s).Pairwise fun found other => found.1 < other.1 := by
  induction s generalizing last place with
  | nil => exact .nil
  | cons c rest ih =>
    rw [tagsFrom, List.pairwise_append]
    refine ⟨?_, ih _ _, fun found hfound other hother => ?_⟩
    · unfold asTag
      split
      · split
        · exact .nil
        · exact List.pairwise_singleton _ _
      · exact .nil
    · split at hfound
      · obtain ⟨run, -, rfl⟩ := List.mem_map.mp hfound
        exact le_of_mem_tagsFrom hother
      · cases hfound

/-- Of what comes before a text it only counts whether that glues a `#`. -/
theorem map_tagsFrom_congr {last other : Option Char}
    (h : last.any gluesHash = other.any gluesHash) (place start : Nat) (s : List Char) :
    (tagsFrom last place s).map Prod.snd = (tagsFrom other start s).map Prod.snd := by
  induction s generalizing last other place start with
  | nil => rfl
  | cons c rest ih =>
    rw [tagsFrom, tagsFrom, List.map_append, List.map_append, ih rfl (place + 1) (start + 1), h]
    congr 1
    split
    · rw [List.map_map, List.map_map]
      rfl
    · rfl

/-! ## The scan -/

/-- The tag that is open after part of a text, as the rest of the text completes it. -/
def TagScan.pending (scan : TagScan) (s : List Char) : List (List Char) :=
  match scan.tag with
  | none => []
  | some tag => asTag (tag.reverse ++ s.takeWhile isTagChar)

theorem TagScan.reverse_closed (scan : TagScan) :
    scan.closed.reverse = scan.done.reverse ++ scan.pending [] := by
  unfold closed pending asTag
  rcases scan with ⟨last, _ | _ | ⟨c, tag⟩, done⟩ <;> simp

/-- A tag character goes to the open tag. -/
theorem TagScan.step_of_run {scan : TagScan} {tag : List Char} (htag : scan.tag = some tag)
    (hc : isTagChar c = true) : scan.step c = ⟨some c, some (c :: tag), scan.done⟩ := by
  unfold step
  rw [htag, hc]

/-- Where no tag goes on, the character before decides whether one is opened. -/
theorem TagScan.step_of_end {scan : TagScan} (h : scan.tag = none ∨ isTagChar c = false) :
    scan.step c = ⟨some c, if c = '#' ∧ scan.last.any gluesHash = false then some [] else none,
      scan.closed⟩ := by
  have hopens : (c == '#' && !scan.last.any gluesHash) =
      decide (c = '#' ∧ scan.last.any gluesHash = false) := by
    rw [Bool.eq_iff_iff]
    simp
  unfold step
  split
  · next tag htag hc => simp [htag, hc] at h
  · simp only [hopens, decide_eq_true_eq]

/-- Nothing completes a tag that has come to its end. -/
theorem TagScan.pending_of_end {scan : TagScan} (h : scan.tag = none ∨ isTagChar c = false)
    (rest : List Char) : scan.pending (c :: rest) = scan.pending [] := by
  unfold pending
  rcases h with h | h
  · rw [h]
  · rw [List.takeWhile_cons_of_neg (by simp [h]), List.takeWhile_nil]

/-- What the scan finds: the tags from before, the open tag as the rest completes it, and the tags
of the rest by their places. -/
theorem closed_foldl_step (scan : TagScan) (place : Nat) (s : List Char) :
    (s.foldl TagScan.step scan).closed.reverse =
      scan.done.reverse ++ scan.pending s ++ (tagsFrom scan.last place s).map Prod.snd := by
  induction s generalizing scan place with
  | nil => rw [List.foldl_nil, scan.reverse_closed, tagsFrom, List.map_nil, List.append_nil]
  | cons c rest ih =>
    rw [List.foldl_cons, ih _ (place + 1), tagsFrom, List.map_append]
    by_cases hend : scan.tag = none ∨ isTagChar c = false
    · rw [TagScan.step_of_end hend, TagScan.pending_of_end hend, scan.reverse_closed]
      by_cases hopens : c = '#' ∧ scan.last.any gluesHash = false
      · simp [TagScan.pending, hopens, Function.comp_def]
      · simp [TagScan.pending, hopens]
    · obtain ⟨htag, hc⟩ := not_or.mp hend
      obtain ⟨tag, htag⟩ := Option.ne_none_iff_exists'.mp htag
      rw [Bool.not_eq_false] at hc
      -- a tag character is no `#`, so the text has no tag at its place
      have hhash : ¬(c = '#' ∧ scan.last.any gluesHash = false) := by
        rintro ⟨rfl, -⟩
        exact absurd hc (by decide)
      rw [TagScan.step_of_run htag hc, if_neg hhash]
      simp [TagScan.pending, htag, hc]

/-- The tags of a text are the tags at its places, in order. -/
theorem hashtagsOf_eq (s : List Char) : hashtagsOf s = (tagsFrom none 0 s).map Prod.snd :=
  closed_foldl_step ⟨none, none, []⟩ 0 s

theorem mem_hashtags_iff {text tag : String} :
    tag ∈ hashtags text ↔ ∃ place, TagAt text.toList place tag.toList := by
  rw [hashtags, hashtagsOf_eq, List.map_map, List.mem_map]
  constructor
  · rintro ⟨⟨place, run⟩, hmem, rfl⟩
    refine ⟨place, ?_⟩
    rw [Function.comp_apply, String.toList_ofList]
    exact mem_tagsFrom_start_iff.mp hmem
  · rintro ⟨place, htag⟩
    exact ⟨(place, tag.toList), mem_tagsFrom_start_iff.mpr htag, String.ofList_toList⟩

/-- A character that is in no tag and glues no `#` keeps two texts apart. -/
theorem hashtagsOf_append_cons (hc : isTagChar c = false) (hglue : gluesHash c = false)
    (before after : List Char) :
    hashtagsOf (before ++ c :: after) = hashtagsOf before ++ hashtagsOf after := by
  have hhash : c ≠ '#' := by
    rintro rfl
    exact absurd hglue (by decide)
  have hlast : (some c).any gluesHash = (none : Option Char).any gluesHash := by simpa using hglue
  rw [hashtagsOf_eq after, ← map_tagsFrom_congr hlast 0 0, hashtagsOf, List.foldl_append,
    List.foldl_cons, TagScan.step_of_end (.inr hc), closed_foldl_step _ 0]
  simp [TagScan.pending, hhash, hashtagsOf]

/-- The tags of a text are the runs of tag characters after each `#` that its neighbours do not
keep from starting one, in the order of their places. So texts with a line break between them have
the tags of the one and then those of the other. -/
theorem hashtags_local :
    (∀ text : String, ∃ found : List (Nat × String),
      hashtags text = found.map Prod.snd ∧
      found.Pairwise (fun tag other => tag.1 < other.1) ∧
      ∀ place tag, (place, tag) ∈ found ↔ TagAt text.toList place tag.toList) ∧
    ∀ before after : String,
      hashtags (before ++ "\n" ++ after) = hashtags before ++ hashtags after := by
  constructor
  · intro text
    refine ⟨(tagsFrom none 0 text.toList).map fun tag => (tag.1, String.ofList tag.2), ?_, ?_,
      fun place tag => ?_⟩
    · rw [hashtags, hashtagsOf_eq, List.map_map, List.map_map]
      rfl
    · exact List.pairwise_map.mpr (pairwise_tagsFrom none 0 text.toList)
    · rw [← mem_tagsFrom_start_iff, List.mem_map]
      constructor
      · rintro ⟨⟨place', tag'⟩, hmem, heq⟩
        cases heq
        rwa [String.toList_ofList]
      · exact fun hmem => ⟨(place, tag.toList), hmem, by rw [String.ofList_toList]⟩
  · intro before after
    have htext : (before ++ "\n" ++ after).toList = before.toList ++ '\n' :: after.toList := by simp
    rw [hashtags, htext, hashtagsOf_append_cons (by decide) (by decide), List.map_append]
    rfl

/-- A `-` ends no tag and does not glue the next `#`, unlike a letter. -/
example : hashtags "#a-#b #c#d" = ["a-", "b", "c"] := by decide +kernel

end CorpusQuery.Markdown
