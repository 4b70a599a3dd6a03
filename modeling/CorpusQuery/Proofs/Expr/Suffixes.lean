import CorpusQuery.Proofs.Expr.Offence

/-!
# Texts from one of their tokens on

Nothing but the rest of the text and the offset goes from one lexeme to the next. So a text that is
cut before one of its tokens has just the tokens from there on, with their places counted from the
cut (`tokenize_from_each_token`). This holds for the operator `not in` too, though the scanner gives
it as two words.
-/

namespace CorpusQuery

namespace Token

open Text

/-! ## Runs from a token on -/

/-- The run from one of the tokens on is a run over the rest of the text. -/
theorem Scanned.suffix {offset : Nat} {cs : List Char} {front back : List Token} {token : Token}
    (h : Scanned offset cs (.ok (front ++ token :: back))) :
    ∃ before c after, cs = before ++ c :: after ∧ isBlank c = false ∧
      token.position = offset + (String.ofList before).utf8ByteSize ∧
      Scanned token.position (c :: after) (.ok (token :: back)) := by
  generalize htokens : front ++ token :: back = tokens at h
  induction h using Scanned.ok_induction generalizing front with
  | finish => cases front <;> cases htokens
  | blank offset d rest tokens _ _ ih =>
    obtain ⟨before, c, after, rfl, hc, hposition, hrun⟩ := ih htokens
    refine ⟨d :: before, c, after, rfl, hc, ?_, hrun⟩
    rw [hposition, utf8ByteSize_ofList_cons, Nat.add_assoc]
  | token offset d text rest kind tokens hblank hlexeme hrest ih =>
    cases front with
    | nil =>
      cases htokens
      exact ⟨[], d, text ++ rest, rfl, hblank, rfl, .token hblank hlexeme hrest⟩
    | cons first front =>
      cases htokens
      obtain ⟨before, c, after, rfl, hc, hposition, hrun⟩ := ih rfl
      refine ⟨d :: text ++ before, c, after, ?_, hc, ?_, hrun⟩
      · simp only [List.cons_append, List.append_assoc]
      · rw [hposition, String.ofList_append, String.utf8ByteSize_append, Nat.add_assoc]

/-! ## Places counted from a token on -/

/-- The token in the text from `start` on. -/
def since (start : Nat) (token : Token) : Token :=
  { token with position := token.position - start }

/-- A run does not depend on where the text is. -/
theorem Scanned.since {offset start : Nat} {cs : List Char} {tokens : List Token}
    (h : Scanned offset cs (.ok tokens)) (hstart : start ≤ offset) :
    Scanned (offset - start) cs (.ok (tokens.map (Token.since start))) := by
  induction h using Scanned.ok_induction with
  | finish => exact .finish
  | blank offset c rest tokens hblank _ ih =>
    have hrest := ih (Nat.le_add_right_of_le hstart)
    rw [Nat.sub_add_comm hstart] at hrest
    exact .blank hblank hrest
  | token offset c text rest kind tokens hblank hlexeme _ ih =>
    have hrest := ih (Nat.le_add_right_of_le hstart)
    rw [Nat.sub_add_comm hstart] at hrest
    exact .token hblank hlexeme hrest

/-! ## The operator of two words -/

theorem joinNotIn_since (start : Nat) (tokens : List Token) :
    joinNotIn (tokens.map (Token.since start)) = (joinNotIn tokens).map (Token.since start) := by
  induction tokens using joinNotIn_induction with
  | nil => rfl
  | joined position inPosition rest ih =>
    rw [joinNotIn_pair, List.map_cons, List.map_cons, List.map_cons, ← ih]
    exact joinNotIn_pair _ _ _
  | kept token rest hnotIn ih =>
    rw [joinNotIn_cons hnotIn, List.map_cons, List.map_cons, joinNotIn_cons, ih]
    intro hname next hnext
    rw [List.head?_map, Option.mem_def, Option.map_eq_some_iff] at hnext
    obtain ⟨other, hother, rfl⟩ := hnext
    exact hnotIn hname other hother

/-- The tokens from one of them on come from what the scanner gives from there on. -/
theorem joinNotIn_suffix {tokens front back : List Token} {token : Token}
    (h : joinNotIn tokens = front ++ token :: back) :
    ∃ before first after, tokens = before ++ first :: after ∧ first.position = token.position ∧
      joinNotIn (first :: after) = token :: back := by
  induction tokens using joinNotIn_induction generalizing front with
  | nil => cases front <;> cases h
  | joined position inPosition rest ih =>
    rw [joinNotIn_pair] at h
    cases front with
    | nil =>
      cases h
      exact ⟨[], _, _, rfl, rfl, joinNotIn_pair _ _ _⟩
    | cons other front =>
      obtain ⟨-, hrest⟩ := List.cons.inj h
      obtain ⟨before, first, after, rfl, hposition, hjoin⟩ := ih hrest
      exact ⟨_ :: _ :: before, first, after, rfl, hposition, hjoin⟩
  | kept other rest hnotIn ih =>
    rw [joinNotIn_cons hnotIn] at h
    cases front with
    | nil =>
      cases h
      exact ⟨[], _, _, rfl, rfl, joinNotIn_cons hnotIn⟩
    | cons _ front =>
      obtain ⟨-, hrest⟩ := List.cons.inj h
      obtain ⟨before, first, after, rfl, hposition, hjoin⟩ := ih hrest
      exact ⟨_ :: before, first, after, rfl, hposition, hjoin⟩

/-- A text never fails over a number. -/
theorem tokenize_not_invalidNumber {source text : String} {place : Nat} :
    tokenize source ≠ .error (place, .invalidNumber text) := by
  intro h
  obtain ⟨_, c, rest, -, -, hlexeme⟩ := (scanned_of_tokenize_error h).error
  have hlexed := lexed_lexeme c rest
  rw [hlexeme] at hlexed
  cases hlexed with
  | stop hproblem => exact hproblem text rfl

/-- The text from one of its tokens on has the tokens from there on. -/
theorem tokenize_suffix {source : String} {front back : List Token} {token : Token}
    (h : tokenize source = .ok (front ++ token :: back)) :
    ∃ before after : String, source = before ++ after ∧ before.utf8ByteSize = token.position ∧
      (∃ c ∈ after.toList.head?, isBlank c = false) ∧
      tokenize after = .ok ((token :: back).map (Token.since token.position)) := by
  obtain ⟨scanned, hscan, hjoin⟩ := scanned_of_tokenize h
  obtain ⟨front, first, back, rfl, hfirst, hback⟩ := joinNotIn_suffix hjoin
  obtain ⟨before, c, after, hsource, hblank, hposition, hrun⟩ := hscan.suffix
  rw [Nat.zero_add, hfirst] at hposition
  rw [hfirst] at hrun
  have hrest := (hrun.since (Nat.le_refl _)).eq_scan
  rw [Nat.sub_self] at hrest
  refine ⟨String.ofList before, String.ofList (c :: after), ?_, hposition.symm, ?_, ?_⟩
  · rw [← String.ofList_append, ← hsource, String.ofList_toList]
  · exact ⟨c, by rw [String.toList_ofList]; rfl, hblank⟩
  · rw [← hback, ← joinNotIn_since, tokenize_eq_ok, String.toList_ofList]
    exact ⟨_, hrest.symm, rfl⟩

end Token

/-- Every text is scanned in one way, lexeme by lexeme, and never fails over a number. The text
from one of its tokens on starts with a character that is not blank and has just the tokens from
there on. -/
theorem tokenize_from_each_token (source : String) :
    (∃ scanned, (∀ result, Token.Scanned 0 source.toList result ↔ result = scanned) ∧
        tokenize source = scanned.map Token.joinNotIn) ∧
      (∀ place text, tokenize source ≠ .error (place, .invalidNumber text)) ∧
      ∀ tokens, tokenize source = .ok tokens →
        (tokens.map Token.position).Pairwise (· < ·) ∧
          ∀ front token back, tokens = front ++ token :: back →
            ∃ before after : String, source = before ++ after ∧
              before.utf8ByteSize = token.position ∧
              (∃ c ∈ after.toList.head?, Text.isBlank c = false) ∧
              tokenize after = .ok ((token :: back).map (Token.since token.position)) := by
  refine ⟨⟨_, fun result => Token.scanned_iff, rfl⟩,
    fun place text => Token.tokenize_not_invalidNumber,
    fun tokens h => ⟨(Expr.tokenize_positions h).1, ?_⟩⟩
  rintro front token back rfl
  exact Token.tokenize_suffix h

/-- From the word `not` on, which is behind a letter of two bytes and is one token with the `in`
behind it. -/
theorem tokenize_from_each_token_of_not_in :
    ∃ before after : String, "\"é\" or x not in y" = before ++ after ∧ before.utf8ByteSize = 10 ∧
      (∃ c ∈ after.toList.head?, Text.isBlank c = false) ∧
      tokenize after = .ok [⟨.compare .notIn, 0⟩, ⟨.name "y", 7⟩] := by
  obtain ⟨-, -, h⟩ := tokenize_from_each_token "\"é\" or x not in y"
  obtain ⟨-, hsuffix⟩ := h [⟨.str "é", 0⟩, ⟨.or, 5⟩, ⟨.name "x", 8⟩, ⟨.compare .notIn, 10⟩,
    ⟨.name "y", 17⟩] rfl
  exact hsuffix [⟨.str "é", 0⟩, ⟨.or, 5⟩, ⟨.name "x", 8⟩] ⟨.compare .notIn, 10⟩ _ rfl

end CorpusQuery
