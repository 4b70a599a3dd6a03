import CorpusQuery.Proofs.Expr.Predictive
import CorpusQuery.Proofs.Expr.Runs

/-!
# Where a text stops being an expression

The place of a compile error is exact. The tokens before it can still become an expression, and no
expression starts with these tokens and the one at fault. A text that does not split into tokens is
at fault at one of its characters.
-/

namespace CorpusQuery.Expr

open Token (Kind)

/-! ## Whole texts -/

/-- Kinds of tokens that the parser accepts. -/
def Accepted (kinds : List Kind) : Prop :=
  ∃ tokens e, tokens.map Token.kind = kinds ∧ ofTokens tokens = .ok e

theorem accepted_iff {kinds : List Kind} : Accepted kinds ↔ ∃ e, Derives .expression kinds e := by
  constructor
  · rintro ⟨tokens, e, rfl, h⟩
    exact ⟨e, derives_of_ofTokens h⟩
  · rintro ⟨e, h⟩
    have hkinds : (kinds.map fun kind => (⟨kind, 0⟩ : Token)).map Token.kind = kinds := by
      rw [List.map_map]
      exact List.map_id kinds
    exact ⟨_, e, hkinds, ofTokens_of_derives (hkinds.symm ▸ h)⟩

theorem ofTokens_eq {tokens : List Token} (hne : tokens ≠ []) :
    ofTokens tokens =
      match expression anyFactor tokens with
      | .ok (e, []) => .ok e
      | .ok (_, found :: _) => .error ⟨some found.position, .unexpected found.kind⟩
      | .error stop => .error stop := by
  have hagree := expression_agree (agree_anyFactor tokens.length) (factor_sound _) tokens
    (Nat.le_refl _)
  have hread : ofTokens tokens =
      match expression (factor tokens.length) tokens with
      | .ok (e, []) => .ok e
      | .ok (_, found :: _) => .error ⟨some found.position, .unexpected found.kind⟩
      | .error stop => .error stop := by
    cases tokens with
    | nil => exact absurd rfl hne
    | cons token rest => rfl
  rw [hread, hagree]

/-- The parser fails as its readers do. -/
theorem ofTokens_refuses {tokens : List Token} {stop : Stop} (hne : tokens ≠ [])
    (h : ofTokens tokens = .error stop) :
    Refuses (Derives .expression) ofTokens tokens stop.position := by
  have hpredictive := predictive_expression anyFactor_sound (predictive_anyFactor tokens.length)
  rw [ofTokens_eq hne] at h
  cases hread : expression anyFactor tokens with
  | error stop' =>
    rw [hread] at h
    cases h
    have hrefuses := hpredictive.refuses (Nat.le_refl _) hread
    generalize stop.position = place at hrefuses ⊢
    cases hrefuses with
    | atEnd viable => exact .atEnd viable
    | atToken before after viable refused =>
      refine .atToken before after viable fun others => ?_
      obtain ⟨stop', hstop⟩ := refused others
      rw [ofTokens_eq (List.append_ne_nil_of_right_ne_nil _ (List.cons_ne_nil _ _)), hstop]
      exact ⟨_, rfl⟩
  | ok result =>
    obtain ⟨e, rest⟩ := result
    rw [hread] at h
    obtain ⟨us, rfl, hus, hmore⟩ :=
      hpredictive.reads (expression_sound anyFactor_sound) (Nat.le_refl _) hread
    cases rest with
    | nil => cases h
    | cons found after =>
      cases h
      refine .atToken us after ⟨[], e, by rwa [List.append_nil]⟩ fun others => ?_
      rw [ofTokens_eq (List.append_ne_nil_of_right_ne_nil _ (List.cons_ne_nil _ _)),
        hmore (found :: others) rfl]
      exact ⟨_, rfl⟩

/-- What cannot be completed: no accepted list of tokens starts in this way. -/
theorem not_accepted_of_refused {before : List Token} {found : Token}
    (h : ∀ others, ∃ stop, ofTokens (before ++ found :: others) = .error stop) (more : List Kind) :
    ¬Accepted (before.map Token.kind ++ found.kind :: more) := by
  rw [accepted_iff]
  rintro ⟨e, he⟩
  let others : List Token := more.map fun kind => ⟨kind, 0⟩
  have hothers : others.map Token.kind = more := by
    rw [List.map_map]
    exact List.map_id more
  have hkinds : (before ++ found :: others).map Token.kind =
      before.map Token.kind ++ found.kind :: more := by
    rw [List.map_append, List.map_cons, hothers]
  obtain ⟨stop, hstop⟩ := h others
  rw [ofTokens_of_derives (hkinds ▸ he)] at hstop
  cases hstop

/-! ## Places in a text -/

/-- The tokens of a text are at ever later places of it. -/
theorem positions_of_scanned {offset : Nat} {cs : List Char} {tokens : List Token}
    (h : Token.Scanned offset cs (.ok tokens)) :
    (tokens.map Token.position).Pairwise (· < ·) ∧ ∀ position ∈ tokens.map Token.position,
      offset ≤ position ∧ position < offset + (String.ofList cs).utf8ByteSize := by
  induction h using Token.Scanned.ok_induction with
  | finish => exact ⟨.nil, nofun⟩
  | blank offset c rest tokens _ _ ih =>
    obtain ⟨hpairwise, hbounds⟩ := ih
    refine ⟨hpairwise, fun position hposition => ?_⟩
    obtain ⟨hlow, hhigh⟩ := hbounds position hposition
    rw [Text.utf8ByteSize_ofList_cons]
    omega
  | token offset c text rest kind tokens _ _ _ ih =>
    obtain ⟨hpairwise, hbounds⟩ := ih
    have hsize := c.utf8Size_pos
    rw [Text.utf8ByteSize_ofList_cons] at hbounds
    have hlater : ∀ position ∈ tokens.map Token.position, offset < position :=
      fun position hposition => Nat.lt_of_lt_of_le (by omega) (hbounds position hposition).1
    rw [Text.utf8ByteSize_ofList_cons, String.ofList_append, String.utf8ByteSize_append]
    refine ⟨.cons hlater hpairwise, List.forall_mem_cons.mpr ⟨?_, fun position hposition => ?_⟩⟩
    · dsimp only
      omega
    · have hhigh := (hbounds position hposition).2
      exact ⟨(hlater position hposition).le, by omega⟩

theorem joinNotIn_positions (tokens : List Token) :
    ((Token.joinNotIn tokens).map Token.position).Sublist (tokens.map Token.position) := by
  induction tokens using Token.joinNotIn_induction with
  | nil => exact .slnil
  | joined position inPosition rest ih =>
    rw [Token.joinNotIn_pair]
    exact .cons_cons position (.cons inPosition ih)
  | kept token rest hnotIn ih =>
    rw [Token.joinNotIn_cons hnotIn]
    exact .cons_cons token.position ih

/-- Each token of a text has a place of its own, before the end of the text. -/
theorem tokenize_positions {source : String} {tokens : List Token}
    (h : tokenize source = .ok tokens) :
    (tokens.map Token.position).Pairwise (· < ·) ∧
      ∀ token ∈ tokens, token.position < source.utf8ByteSize := by
  obtain ⟨scanned, hscan, rfl⟩ := Token.scanned_of_tokenize h
  obtain ⟨hpairwise, hbounds⟩ := positions_of_scanned hscan
  have hsublist := joinNotIn_positions scanned
  refine ⟨hpairwise.sublist hsublist, fun token htoken => ?_⟩
  have hposition := (hbounds _ (hsublist.subset (List.mem_map_of_mem htoken))).2
  rwa [Nat.zero_add, String.ofList_toList] at hposition

/-- A text that does not split into tokens is at fault at one of its characters. -/
theorem tokenize_error {source : String} {place : Nat} {problem : LexError}
    (h : tokenize source = .error (place, problem)) :
    (⟨place⟩ : String.Pos.Raw).IsValid source ∧ place < source.utf8ByteSize := by
  obtain ⟨before, c, after, heq, hplace, -⟩ := (Token.scanned_of_tokenize_error h).error
  have hsource : source = String.ofList before ++ String.ofList (c :: after) := by
    rw [← String.ofList_append, ← heq, String.ofList_toList]
  have hc := c.utf8Size_pos
  rw [Nat.zero_add] at hplace
  constructor
  · exact String.Pos.Raw.isValid_iff_exists_append.mpr ⟨_, _, hsource, by rw [hplace]; rfl⟩
  · rw [hsource, String.utf8ByteSize_append, Text.utf8ByteSize_ofList_cons, hplace]
    omega

/-! ## The place of a compile error -/

/-- A compile error is at the end of the text or at one of its tokens. At the end, the tokens are a
proper beginning of an accepted list. At a token, those before it are the beginning of an accepted
list, and with it they are not. Every token has a place of its own, which is not the end. If the
text does not split into tokens, the error is at one of its characters. -/
theorem compile_error_marks_offence (source : String) :
    (∀ tokens e, tokenize source = .ok tokens → tokens ≠ [] → compile source = .error e →
      (e.position = source.utf8ByteSize ∧
          ∃ more, more ≠ [] ∧ Accepted (tokens.map Token.kind ++ more)) ∨
        ∃ before found after, tokens = before ++ found :: after ∧ e.position = found.position ∧
          (∃ more, Accepted (before.map Token.kind ++ more)) ∧
          ∀ more, ¬Accepted ((before ++ [found]).map Token.kind ++ more)) ∧
      (∀ tokens, tokenize source = .ok tokens →
        (tokens.map Token.position).Pairwise (· < ·) ∧
          ∀ token ∈ tokens, token.position < source.utf8ByteSize) ∧
      ∀ place problem, tokenize source = .error (place, problem) →
        ∃ e, compile source = .error e ∧ e.position = place ∧
          (⟨e.position⟩ : String.Pos.Raw).IsValid source ∧ e.position < source.utf8ByteSize := by
  refine ⟨fun tokens e htokens hne h => ?_, fun tokens htokens => tokenize_positions htokens,
    fun place problem hfail => ?_⟩
  · unfold compile at h
    rw [htokens] at h
    dsimp only at h
    cases hread : ofTokens tokens with
    | ok e =>
      rw [hread] at h
      cases h
    | error stop =>
      rw [hread] at h
      cases h
      have hrefuses := ofTokens_refuses hne hread
      dsimp only
      generalize stop.position = place at hrefuses
      cases hrefuses with
      | atEnd viable =>
        obtain ⟨more, e, he⟩ := viable
        refine .inl ⟨rfl, more, ?_, accepted_iff.mpr ⟨e, he⟩⟩
        rintro rfl
        rw [List.append_nil] at he
        rw [ofTokens_of_derives he] at hread
        cases hread
      | @atToken before found after viable refused =>
        obtain ⟨more, e, he⟩ := viable
        refine .inr ⟨before, found, after, rfl, rfl, ⟨more, accepted_iff.mpr ⟨e, he⟩⟩, ?_⟩
        intro more haccepted
        rw [List.map_append, List.append_assoc] at haccepted
        exact not_accepted_of_refused refused more haccepted
  · obtain ⟨hvalid, hinside⟩ := tokenize_error hfail
    exact ⟨⟨source, place, .lone problem⟩, by rw [compile, hfail], rfl, hvalid, hinside⟩

theorem compile_error_marks_offence_of_comma :
    (∃ tokens, tokenize "f(x, ) or y" = .ok tokens ∧ tokens ≠ [] ∧
      compile "f(x, ) or y" = .error ⟨"f(x, ) or y", 5, .notArgument .closing⟩ ∧
      ∃ before found after, tokens = before ++ found :: after ∧ 5 = found.position ∧
        (∃ more, Accepted (before.map Token.kind ++ more)) ∧
        ∀ more, ¬Accepted ((before ++ [found]).map Token.kind ++ more)) ∧
      tokenize "\"é\" = 1" = .error (5, .loneEquals) ∧
        (⟨5⟩ : String.Pos.Raw).IsValid "\"é\" = 1" ∧ 5 < "\"é\" = 1".utf8ByteSize := by
  let tokens : List Token := [⟨.name "f", 0⟩, ⟨.opening, 1⟩, ⟨.name "x", 2⟩, ⟨.comma, 3⟩,
    ⟨.closing, 5⟩, ⟨.or, 7⟩, ⟨.name "y", 10⟩]
  obtain ⟨hplace, -, -⟩ := compile_error_marks_offence "f(x, ) or y"
  obtain ⟨-, -, hcharacter⟩ := compile_error_marks_offence "\"é\" = 1"
  constructor
  · refine ⟨tokens, rfl, List.cons_ne_nil _ _, rfl, ?_⟩
    obtain ⟨hend, -⟩ | htoken := hplace tokens _ rfl (List.cons_ne_nil _ _) rfl
    · exact absurd hend (by decide)
    · exact htoken
  · obtain ⟨e, -, heq, hvalid, hinside⟩ := hcharacter 5 .loneEquals rfl
    rw [heq] at hvalid hinside
    exact ⟨rfl, hvalid, hinside⟩

end CorpusQuery.Expr
