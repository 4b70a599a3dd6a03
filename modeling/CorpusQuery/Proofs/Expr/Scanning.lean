import CorpusQuery.Proofs.Expr.Runs

/-!
# Tokens that the scanner gives

Names are words, integers are not negative, and in the content of a string each double quote comes
right after a backslash. The contents of strings with escapes are just the guarded ones.
-/

namespace CorpusQuery

open Text

namespace Token

/-! ## Contents of strings -/

theorem guarded_nil : Expr.Guarded [] := by
  intro before after heq
  exact absurd heq (by simp)

theorem guarded_cons {c : Char} {t : List Char} (hc : c ≠ '"') (h : Expr.Guarded t) :
    Expr.Guarded (c :: t) := by
  intro before after heq
  cases before with
  | nil =>
    cases heq
    exact absurd rfl hc
  | cons d before =>
    obtain ⟨-, htail⟩ := List.cons.inj heq
    rw [List.getLast?_cons, h before after htail]
    rfl

theorem guarded_escaped {t : List Char} (h : Expr.Guarded t) : Expr.Guarded ('\\' :: '"' :: t) := by
  intro before after heq
  rcases before with _ | ⟨d, _ | ⟨e, before⟩⟩
  · cases heq
  · cases heq
    rfl
  · obtain ⟨-, htail⟩ := List.cons.inj heq
    obtain ⟨-, htail⟩ := List.cons.inj htail
    rw [List.getLast?_cons, List.getLast?_cons, h before after htail]
    rfl

theorem guarded_of_escapes {s t : List Char} (h : Escapes s t) : Expr.Guarded t := by
  induction h with
  | nil => exact guarded_nil
  | plain hquote _ _ ih => exact guarded_cons hquote ih
  | newline _ ih | tab _ ih | backslash _ ih | quote _ ih => exact guarded_cons (by decide) ih
  | @other c s t hc _ ih =>
    by_cases hquote : c = '"'
    · subst hquote
      exact guarded_escaped ih
    · exact guarded_cons (by decide) (guarded_cons hquote ih)

theorem Guarded.head {c : Char} {t : List Char} (h : Expr.Guarded (c :: t)) (hc : c ≠ '\\') :
    ∀ d ∈ t.head?, d ≠ '"' := by
  rintro d hd rfl
  cases t with
  | nil => cases hd
  | cons e t =>
    cases hd
    exact hc (Option.some.inj (h [c] t rfl))

theorem Guarded.tail {c : Char} {t : List Char} (h : Expr.Guarded (c :: t))
    (hhead : ∀ d ∈ t.head?, d ≠ '"') : Expr.Guarded t := by
  intro before after heq
  cases before with
  | nil =>
    subst heq
    exact absurd rfl (hhead '"' rfl)
  | cons d before =>
    have hlast := h (c :: d :: before) after (by rw [heq]; rfl)
    rwa [List.getLast?_cons_cons] at hlast

theorem Guarded.escaped_tail {t : List Char} (h : Expr.Guarded ('\\' :: '"' :: t)) :
    Expr.Guarded t := by
  intro before after heq
  have hlast := h ('\\' :: '"' :: before) after (by rw [heq]; rfl)
  cases before with
  | nil => exact absurd hlast (by decide)
  | cons d before => rwa [List.getLast?_cons_cons, List.getLast?_cons_cons] at hlast

/-- A guarded content can be written. The induction is on the content with and without a backslash
in front, since a backslash is written together with a double quote after it. -/
theorem exists_escapes (t : List Char) :
    (Expr.Guarded t → ∃ s, Escapes s t) ∧
      (Expr.Guarded ('\\' :: t) → ∃ s, Escapes s ('\\' :: t)) := by
  induction t with
  | nil => exact ⟨fun _ => ⟨[], .nil⟩, fun _ => ⟨_, .backslash .nil⟩⟩
  | cons c t ih =>
    obtain ⟨ihPlain, ihBackslash⟩ := ih
    have hplain : Expr.Guarded (c :: t) → ∃ s, Escapes s (c :: t) := by
      intro h
      by_cases hbackslash : c = '\\'
      · subst hbackslash
        exact ihBackslash h
      · have hquote : c ≠ '"' := by
          rintro rfl
          exact absurd (h [] t rfl) (by decide)
        obtain ⟨s, hs⟩ := ihPlain (Guarded.tail h (Guarded.head h hbackslash))
        exact ⟨c :: s, .plain hquote hbackslash hs⟩
    refine ⟨hplain, fun h => ?_⟩
    by_cases hquote : c = '"'
    · subst hquote
      obtain ⟨s, hs⟩ := ihPlain (Guarded.escaped_tail h)
      exact ⟨_, .other (by decide) hs⟩
    · have hhead : ∀ d ∈ (c :: t).head?, d ≠ '"' := by
        rintro d ⟨⟩
        exact hquote
      obtain ⟨s, hs⟩ := hplain (Guarded.tail h hhead)
      exact ⟨_, .backslash hs⟩

theorem escapes_unescape (c : Char) {s t : List Char} (h : Escapes s t) :
    Escapes ('\\' :: c :: s) ((unescape c).reverse ++ t) := by
  unfold unescape
  split
  · next hc => exact hc ▸ .newline h
  · next hn =>
    split
    · next hc => exact hc ▸ .tab h
    · next ht =>
      split
      · next hc => exact hc ▸ .backslash h
      · next hbackslash =>
        split
        · next hc => exact hc ▸ .quote h
        · next hquote =>
          refine .other ?_ h
          simp only [List.mem_cons, List.not_mem_nil, or_false, not_or]
          exact ⟨hn, ht, hbackslash, hquote⟩

theorem escapes_of_readString {content : List Char} {taken n : Nat} {cs : List Char} {text : String}
    (h : readString content taken cs = some (text, n)) :
    ∃ s t, text = String.ofList (content.reverse ++ t) ∧ Escapes s t := by
  induction content, taken, cs using readString.induct with
  | case1 => cases h
  | case2 content taken rest =>
    rw [readString] at h
    cases h
    exact ⟨[], [], by rw [List.append_nil], .nil⟩
  | case3 => cases h
  | case4 content taken c rest ih =>
    rw [readString] at h
    obtain ⟨s, t, heq, hs⟩ := ih h
    refine ⟨_, _, ?_, escapes_unescape c hs⟩
    rw [heq, List.reverse_append, List.append_assoc]
  | case5 content taken c rest hquote hlast hpair ih =>
    have hbackslash : c ≠ '\\' := by
      intro hc
      cases rest with
      | nil => exact hlast hc rfl
      | cons d rest => exact hpair d rest hc rfl
    rw [readString] at h
    · obtain ⟨s, t, heq, hs⟩ := ih h
      refine ⟨c :: s, c :: t, ?_, .plain hquote hbackslash hs⟩
      rw [heq, List.reverse_cons, List.append_assoc, List.singleton_append]
    all_goals assumption

/-! ## Single tokens -/

theorem isProper_ofWord {word : List Char} (hne : word ≠ [])
    (hchars : ∀ c ∈ word, isWordChar c = true) (hfirst : ∀ c ∈ word.head?, c.isDigit = false) :
    (ofWord word).IsProper := by
  unfold ofWord
  split
  · trivial
  · next hand =>
    split
    · trivial
    · next hor =>
      split
      · trivial
      · next hin =>
        have hfree : ∀ other : String, word ≠ other.toList → String.ofList word ≠ other := by
          intro other hother heq
          rw [← heq, String.toList_ofList] at hother
          exact hother rfl
        refine ⟨?_, ?_, ?_, hfree "and" hand, hfree "or" hor, hfree "in" hin⟩
        · rwa [String.toList_ofList]
        · rwa [String.toList_ofList]
        · rwa [String.toList_ofList]

theorem nonneg_of_int64? {n : Nat} {i : Int64} (h : Value.int64? n = some i) : 0 ≤ i.toInt := by
  rw [Value.int64?_eq_some_iff.mp h]
  exact Int.natCast_nonneg n

theorem isProper_of_readNumber {cs : List Char} {kind : Kind} {n : Nat}
    (h : readNumber cs = .ok (kind, n)) : kind.IsProper := by
  rcases htext : numberText cs with ⟨whole, fraction⟩
  simp only [readNumber, htext] at h
  split at h
  · cases hint : Value.int64? (Decimal.natOfDigits 0 whole) with
    | none =>
      simp only [hint] at h
      split at h
      · cases h
        trivial
      · cases h
    | some i =>
      simp only [hint, Except.ok.injEq, Prod.mk.injEq] at h
      obtain ⟨rfl, -⟩ := h
      exact nonneg_of_int64? hint
  · split at h
    · cases h
      trivial
    · cases h

theorem isProper_of_withEquals {alone joined kind : Kind} {rest : List Char} {n : Nat}
    (halone : alone.IsProper) (hjoined : joined.IsProper)
    (h : withEquals alone joined rest = .ok (kind, n)) : kind.IsProper := by
  unfold withEquals at h
  split at h
  · cases h
    exact hjoined
  · cases h
    exact halone

theorem isProper_of_ok {sign kind : Kind} {size n : Nat} (hsign : sign.IsProper)
    (h : (.ok (sign, size) : Except LexError (Kind × Nat)) = .ok (kind, n)) : kind.IsProper := by
  cases h
  exact hsign

theorem isProper_of_ite {p : Prop} [Decidable p] {kind : Kind} {n : Nat}
    {first other : Except LexError (Kind × Nat)} (hfirst : first = .ok (kind, n) → kind.IsProper)
    (hother : other = .ok (kind, n) → kind.IsProper)
    (h : (if p then first else other) = .ok (kind, n)) : kind.IsProper := by
  split at h
  · exact hfirst h
  · exact hother h

/-- What the scanner gives at one place is a proper token. -/
theorem isProper_of_lexeme {c : Char} {rest : List Char} {kind : Kind} {n : Nat}
    (h : lexeme c rest = .ok (kind, n)) : kind.IsProper := by
  by_cases hword : isWordChar c = true
  · rw [lexeme_of_isWordChar hword] at h
    split at h
    · exact isProper_of_readNumber h
    · next hdigit =>
      cases h
      refine isProper_ofWord (List.cons_ne_nil _ _) ?_ ?_
      · intro d hd
        rcases List.mem_cons.mp hd with rfl | hd
        · exact hword
        · exact List.mem_takeWhile_imp hd
      · rintro d ⟨⟩
        exact Bool.eq_false_iff.mpr hdigit
  · have hdigit : ¬c.isDigit = true := fun hdigit => hword (isWordChar_of_isDigit hdigit)
    unfold lexeme at h
    rw [if_neg hdigit, if_neg hword] at h
    revert h
    refine isProper_of_ite (isProper_of_ok trivial) <| isProper_of_ite (isProper_of_ok trivial) <|
      isProper_of_ite (isProper_of_ok trivial) <| isProper_of_ite (isProper_of_ok trivial) <|
      isProper_of_ite (isProper_of_ok trivial) <| isProper_of_ite (isProper_of_ok trivial) <|
      isProper_of_ite (isProper_of_ok trivial) <| isProper_of_ite (isProper_of_ok trivial) <|
      isProper_of_ite (isProper_of_withEquals trivial trivial) <|
      isProper_of_ite (isProper_of_withEquals trivial trivial) <|
      isProper_of_ite (isProper_of_withEquals trivial trivial) <|
      isProper_of_ite ?equals <| isProper_of_ite ?str fun h => by cases h
    case equals =>
      intro h
      split at h
      · cases h
        trivial
      · cases h
    case str =>
      intro h
      split at h
      · next content taken hread =>
        cases h
        obtain ⟨s, t, rfl, hs⟩ := escapes_of_readString hread
        change Expr.Guarded (String.ofList t).toList
        rw [String.toList_ofList]
        exact guarded_of_escapes hs
      · cases h

/-! ## All tokens -/

theorem Scanned.isProper {offset : Nat} {cs : List Char} {tokens : List Token}
    (h : Scanned offset cs (.ok tokens)) : ∀ token ∈ tokens, token.kind.IsProper := by
  induction h using Scanned.ok_induction with
  | finish => exact List.forall_mem_nil _
  | blank _ _ _ _ _ _ ih => exact ih
  | token _ _ _ _ _ _ _ hlexeme _ ih =>
    exact List.forall_mem_cons.mpr ⟨isProper_of_lexeme hlexeme, ih⟩

theorem isProper_of_joinNotIn {tokens : List Token}
    (h : ∀ token ∈ tokens, token.kind.IsProper) :
    ∀ token ∈ joinNotIn tokens, token.kind.IsProper := by
  induction tokens using joinNotIn_induction with
  | nil => exact h
  | joined position inPosition rest ih =>
    rw [joinNotIn_pair]
    intro token htoken
    rcases List.mem_cons.mp htoken with rfl | htoken
    · trivial
    · have hrest : ∀ other ∈ rest, other.kind.IsProper := fun other hother =>
        h other (List.mem_cons_of_mem _ (List.mem_cons_of_mem _ hother))
      exact ih hrest token htoken
  | kept token rest hnotIn ih =>
    rw [joinNotIn_cons hnotIn]
    intro other hother
    rcases List.mem_cons.mp hother with rfl | hother
    · exact h _ List.mem_cons_self
    · exact ih (fun next hnext => h next (List.mem_cons_of_mem _ hnext)) other hother

/-- Every token of a text is proper. -/
theorem isProper_of_tokenize {source : String} {tokens : List Token}
    (h : tokenize source = .ok tokens) : ∀ kind ∈ tokens.map Token.kind, kind.IsProper := by
  obtain ⟨scanned, hscan, rfl⟩ := scanned_of_tokenize h
  intro kind hkind
  obtain ⟨token, htoken, rfl⟩ := List.mem_map.mp hkind
  exact isProper_of_joinNotIn hscan.isProper token htoken

end Token

end CorpusQuery
