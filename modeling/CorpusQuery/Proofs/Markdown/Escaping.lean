import CorpusQuery.Markdown
import Mathlib.Data.List.Infix

/-!
# Escaped text

A text is written for HTML with entities in the place of the five characters with a meaning of their
own. What comes of it is safe: it has no angle bracket and no quote, and every ampersand begins an
entity (`isSafe_flatMap`). So it can be read from left to right in one way only, and nothing is lost
(`unescape_escape`). The escaped texts are all the safe ones: each is what its reading is escaped to
(`flatMap_unescapeChars`).
-/

namespace CorpusQuery.Html

variable {c : Char} {rest text : List Char}

/-- The text that is written with the five entities. -/
def unescapeChars : List Char → List Char
  | '&' :: 'a' :: 'm' :: 'p' :: ';' :: rest => '&' :: unescapeChars rest
  | '&' :: 'l' :: 't' :: ';' :: rest => '<' :: unescapeChars rest
  | '&' :: 'g' :: 't' :: ';' :: rest => '>' :: unescapeChars rest
  | '&' :: 'q' :: 'u' :: 'o' :: 't' :: ';' :: rest => '"' :: unescapeChars rest
  | '&' :: '#' :: '3' :: '9' :: ';' :: rest => '\'' :: unescapeChars rest
  | c :: rest => c :: unescapeChars rest
  | [] => []

/-- The text that a text of HTML stands for. -/
def unescape (s : String) : String := String.ofList (unescapeChars s.toList)

/-- The entities. -/
def entities : List String := ["&amp;", "&lt;", "&gt;", "&quot;", "&#39;"]

/-- The characters that begin or end a tag or the value of an attribute. -/
def delimiters : List Char := ['<', '>', '"', '\'']

/-- A character that can only stand for itself. -/
def IsPlain (c : Char) : Prop := c ∉ delimiters ∧ c ≠ '&'

/-- A text that stays text between tags and in an attribute: no character in it is a delimiter, and
every ampersand begins an entity. -/
structure IsSafe (text : List Char) : Prop where
  undelimited : ∀ c ∈ delimiters, c ∉ text
  entity : ∀ before after, text = before ++ '&' :: after →
    ∃ entity ∈ entities, entity.toList <+: '&' :: after

/-! ## Safe texts -/

theorem isSafe_nil : IsSafe [] where
  undelimited := by simp
  entity := by simp

/-- What comes after a part of a safe text is safe. -/
theorem IsSafe.of_append (before : List Char) (h : IsSafe (before ++ rest)) : IsSafe rest where
  undelimited c hc hmem := h.undelimited c hc (List.mem_append_right before hmem)
  entity inner after hrest := h.entity (before ++ inner) after (by rw [hrest, List.append_assoc])

/-- A safe text stays so behind characters that stand for themselves. -/
theorem IsSafe.append {before : List Char} (h : IsSafe rest)
    (hbefore : ∀ c ∈ before, IsPlain c) : IsSafe (before ++ rest) where
  undelimited c hc hmem := by
    rcases List.mem_append.mp hmem with hmem | hmem
    · exact (hbefore c hmem).1 hc
    · exact h.undelimited c hc hmem
  entity inner after htext := by
    induction before generalizing inner with
    | nil => exact h.entity inner after htext
    | cons c before ih =>
      cases inner with
      | nil =>
        obtain ⟨rfl, -⟩ := List.cons.inj htext
        exact absurd rfl (hbefore '&' List.mem_cons_self).2
      | cons d inner =>
        exact ih (fun c hc => hbefore c (List.mem_cons_of_mem _ hc)) inner (List.cons.inj htext).2

/-- A safe text stays so behind an entity. -/
theorem IsSafe.entity_append {name : List Char} {entity : String} (h : IsSafe rest)
    (hentity : entity ∈ entities) (hname : entity.toList = '&' :: name)
    (hplain : ∀ c ∈ name, IsPlain c) : IsSafe ('&' :: (name ++ rest)) where
  undelimited c hc hmem := by
    rcases List.mem_cons.mp hmem with rfl | hmem
    · revert hc
      decide
    · exact (h.append hplain).undelimited c hc hmem
  entity inner after htext := by
    cases inner with
    | nil =>
      refine ⟨entity, hentity, ?_⟩
      obtain ⟨-, rfl⟩ := List.cons.inj htext
      rw [hname]
      exact List.prefix_append ('&' :: name) rest
    | cons d inner =>
      exact (h.append hplain).entity inner after (List.cons.inj htext).2

/-! ## Escaping is safe -/

/-- A character is written as it is, if it can only stand for itself, or as an entity. -/
theorem escapeChar_cases (c : Char) :
    escapeChar c = [c] ∧ IsPlain c ∨
      ∃ entity ∈ entities, ∃ name, escapeChar c = '&' :: name ∧ entity.toList = '&' :: name ∧
        ∀ c ∈ name, IsPlain c := by
  unfold escapeChar
  split_ifs with hamp hlt hgt hquot hapos
  · exact .inr ⟨"&amp;", by decide, _, rfl, rfl, by simp [IsPlain, delimiters]⟩
  · exact .inr ⟨"&lt;", by decide, _, rfl, rfl, by simp [IsPlain, delimiters]⟩
  · exact .inr ⟨"&gt;", by decide, _, rfl, rfl, by simp [IsPlain, delimiters]⟩
  · exact .inr ⟨"&quot;", by decide, _, rfl, rfl, by simp [IsPlain, delimiters]⟩
  · exact .inr ⟨"&#39;", by decide, _, rfl, rfl, by simp [IsPlain, delimiters]⟩
  · exact .inl ⟨rfl, by simp [delimiters, hlt, hgt, hquot, hapos], hamp⟩

theorem isSafe_flatMap (text : List Char) : IsSafe (text.flatMap escapeChar) := by
  induction text with
  | nil => exact isSafe_nil
  | cons c text ih =>
    rw [List.flatMap_cons]
    rcases escapeChar_cases c with ⟨hc, hplain⟩ | ⟨entity, hentity, name, hc, hname, hplain⟩
    · rw [hc]
      exact ih.append (by simpa using hplain)
    · rw [hc]
      exact ih.entity_append hentity hname hplain

theorem isSafe_escape (s : String) : IsSafe (escape s).toList := by
  rw [escape, String.toList_ofList]
  exact isSafe_flatMap s.toList

/-! ## Reading back -/

theorem unescapeChars_cons {c : Char} (h : c ≠ '&') (rest : List Char) :
    unescapeChars (c :: rest) = c :: unescapeChars rest := by
  rw [unescapeChars] <;> intros <;> simp_all

theorem unescapeChars_escapeChar (c : Char) (rest : List Char) :
    unescapeChars (escapeChar c ++ rest) = c :: unescapeChars rest := by
  unfold escapeChar
  split_ifs with hamp hlt hgt hquot hapos
  case neg => exact unescapeChars_cons hamp rest
  all_goals
    subst c
    rfl

theorem unescapeChars_flatMap (s : List Char) : unescapeChars (s.flatMap escapeChar) = s := by
  induction s with
  | nil => rfl
  | cons c s ih => rw [List.flatMap_cons, unescapeChars_escapeChar, ih]

/-- Nothing is lost in writing a text as HTML. -/
theorem unescape_escape (s : String) : unescape (escape s) = s := by
  rw [unescape, escape, String.toList_ofList, unescapeChars_flatMap, String.ofList_toList]

theorem escapeChar_of_isPlain (h : IsPlain c) : escapeChar c = [c] := by
  obtain ⟨hdelimiter, hamp⟩ := h
  simp only [delimiters, List.mem_cons, List.not_mem_nil, or_false, not_or] at hdelimiter
  simp [escapeChar, hamp, hdelimiter]

/-- A safe text is what its reading is written as. -/
theorem flatMap_unescapeChars (h : IsSafe text) :
    (unescapeChars text).flatMap escapeChar = text := by
  induction text using unescapeChars.induct with
  | case1 rest ih =>
    rw [unescapeChars, List.flatMap_cons, ih (h.of_append "&amp;".toList)]
    rfl
  | case2 rest ih =>
    rw [unescapeChars, List.flatMap_cons, ih (h.of_append "&lt;".toList)]
    rfl
  | case3 rest ih =>
    rw [unescapeChars, List.flatMap_cons, ih (h.of_append "&gt;".toList)]
    rfl
  | case4 rest ih =>
    rw [unescapeChars, List.flatMap_cons, ih (h.of_append "&quot;".toList)]
    rfl
  | case5 rest ih =>
    rw [unescapeChars, List.flatMap_cons, ih (h.of_append "&#39;".toList)]
    rfl
  | case6 c rest hamp hlt hgt hquot hapos ih =>
    have hdelimiter : c ∉ delimiters := fun hc => h.undelimited c hc List.mem_cons_self
    have hne : c ≠ '&' := by
      rintro rfl
      obtain ⟨entity, hentity, after, hafter⟩ := h.entity [] rest rfl
      simp only [entities, List.mem_cons, List.not_mem_nil, or_false] at hentity
      rcases hentity with rfl | rfl | rfl | rfl | rfl
      · exact hamp after rfl (List.cons.inj hafter).2.symm
      · exact hlt after rfl (List.cons.inj hafter).2.symm
      · exact hgt after rfl (List.cons.inj hafter).2.symm
      · exact hquot after rfl (List.cons.inj hafter).2.symm
      · exact hapos after rfl (List.cons.inj hafter).2.symm
    rw [unescapeChars_cons hne, List.flatMap_cons, escapeChar_of_isPlain ⟨hdelimiter, hne⟩,
      ih (h.of_append [c])]
    rfl
  | case7 => rfl

theorem escape_append (s t : String) : escape (s ++ t) = escape s ++ escape t := by
  simp [escape]

/-- What is written is safe, it is read back as the text it was, different texts are written
differently, and a text is written part by part. Every safe text is written for some text. -/
theorem escape_safe_and_reversible :
    (∀ s : String, IsSafe (escape s).toList) ∧
    (∀ s : String, unescape (escape s) = s) ∧
    Function.Injective escape ∧
    (∀ s t : String, escape (s ++ t) = escape s ++ escape t) ∧
    ∀ t : String, IsSafe t.toList ↔ ∃ s, escape s = t := by
  refine ⟨isSafe_escape, unescape_escape, Function.LeftInverse.injective unescape_escape, escape_append,
    fun t => ⟨fun h => ⟨unescape t, ?_⟩, ?_⟩⟩
  · rw [escape, unescape, String.toList_ofList, flatMap_unescapeChars h, String.ofList_toList]
  · rintro ⟨s, rfl⟩
    exact isSafe_escape s

end CorpusQuery.Html
