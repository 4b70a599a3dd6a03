import CorpusQuery.Proofs.Expr.Lexing
import Mathlib.Data.List.TakeWhile

/-!
# Runs of the scanner

The scanner goes over a text character by character and passes those that belong to the token
before. Told by its lexemes, a run takes a blank or a whole lexeme off the text in each step
(`Scanned`): each lexeme has a character at least and ends within the text, and what the scanner
reads as a number always is one. There is just one run over each text (`scanned_iff`).
-/

namespace CorpusQuery

namespace Decimal

/-! ## Numbers without sign and exponent -/

/-- Digits, one at least, and perhaps a point and more digits. -/
inductive Plain : List Char → Prop
  | whole {c : Char} {digits : List Char} (h : ∀ d ∈ c :: digits, d.isDigit = true) :
    Plain (c :: digits)
  | pointed {c : Char} {digits fraction : List Char} (h : ∀ d ∈ c :: digits, d.isDigit = true)
    (hfraction : ∀ d ∈ fraction, d.isDigit = true) : Plain (c :: digits ++ '.' :: fraction)

theorem Plain.starts {text : List Char} (h : Plain text) :
    ∃ c rest, text = c :: rest ∧ c.isDigit = true := by
  cases h with
  | whole h => exact ⟨_, _, rfl, h _ List.mem_cons_self⟩
  | pointed h => exact ⟨_, _, rfl, h _ List.mem_cons_self⟩

theorem toLower_of_isDigit {c : Char} (h : c.isDigit = true) : c.toLower = c := by
  simp only [Char.isDigit, Bool.and_eq_true, decide_eq_true_eq] at h
  have hle : c.toNat ≤ 57 := h.2
  unfold Char.toLower
  split
  · next hupper =>
    have hge : 65 ≤ c.toNat := hupper.1
    omega
  · rfl

theorem exists_readMagnitude? {text : List Char} (h : Plain text) :
    ∃ x, readMagnitude? text = some x := by
  obtain ⟨c, others, htext, hc⟩ := h.starts
  have hword : ∀ word : List Char, (∃ d ∈ word.head?, d.isDigit = false) →
      text.map Char.toLower ≠ word := by
    rintro word ⟨d, hd, hdigit⟩ rfl
    rw [htext, List.map_cons, List.head?_cons, toLower_of_isDigit hc] at hd
    cases hd
    rw [hc] at hdigit
    cases hdigit
  unfold readMagnitude?
  dsimp only
  rw [if_neg (not_or.mpr ⟨hword _ ⟨'i', rfl, rfl⟩, hword _ ⟨'i', rfl, rfl⟩⟩),
    if_neg (hword _ ⟨'n', rfl, rfl⟩)]
  cases h with
  | whole h =>
    rw [List.takeWhile_eq_self_iff.mpr h, List.dropWhile_eq_nil_iff.mpr h]
    exact ⟨_, rfl⟩
  | @pointed c digits fraction h hfraction =>
    have hpoint : ∀ d ∈ ('.' :: fraction).head?, d.isDigit = false := by
      rintro d ⟨⟩
      decide
    obtain ⟨htake, hdrop⟩ := Token.takeWhile_append_of_head h hpoint
    rw [htake, hdrop]
    -- no exponent is left behind the fraction
    change ∃ x, (readExponent? (fraction.dropWhile Char.isDigit)).map _ = some x
    rw [List.dropWhile_eq_nil_iff.mpr hfraction]
    exact ⟨_, rfl⟩

/-- Plain numbers are numbers. -/
theorem exists_readFloat? {text : List Char} (h : Plain text) : ∃ x, readFloat? text = some x := by
  obtain ⟨c, rest, rfl, hc⟩ := h.starts
  have hsign : ∀ sign : Char, sign.isDigit = false → ∀ s, c :: rest ≠ sign :: s := by
    rintro sign hsign s heq
    cases heq
    rw [hc] at hsign
    cases hsign
  rw [readFloat?]
  · exact exists_readMagnitude? h
  · exact hsign '-' (by decide)
  · exact hsign '+' (by decide)

end Decimal

namespace Token

open Text

/-! ## Lexemes -/

/-- The reading of a lexeme from a text of `length` characters: it takes one character at least and
does not go beyond the text, or it fails, but not over a number. -/
inductive Lexed (length : Nat) : Except LexError (Kind × Nat) → Prop
  | token {kind : Kind} {taken : Nat} (hpos : 0 < taken) (hle : taken ≤ length) :
    Lexed length (.ok (kind, taken))
  | stop {problem : LexError} (h : ∀ text, problem ≠ .invalidNumber text) :
    Lexed length (.error problem)

theorem lexed_withEquals (alone joined : Kind) (rest : List Char) :
    Lexed (rest.length + 1) (withEquals alone joined rest) := by
  unfold withEquals
  split
  · exact .token Nat.two_pos (by rw [List.length_cons]; omega)
  · exact .token Nat.one_pos (Nat.le_add_left 1 _)

/-- The closing quote of a string is in the text. -/
theorem readString_taken {content : List Char} {taken n : Nat} {cs : List Char} {text : String}
    (h : readString content taken cs = some (text, n)) : taken < n ∧ n ≤ taken + cs.length := by
  induction content, taken, cs using readString.induct with
  | case1 => cases h
  | case2 content taken rest =>
    rw [readString] at h
    cases h
    rw [List.length_cons]
    omega
  | case3 => cases h
  | case4 content taken c rest ih =>
    rw [readString] at h
    obtain ⟨hlow, hhigh⟩ := ih h
    rw [List.length_cons, List.length_cons]
    omega
  | case5 content taken c rest hquote hlast hpair ih =>
    rw [readString] at h
    · obtain ⟨hlow, hhigh⟩ := ih h
      rw [List.length_cons]
      omega
    all_goals assumption

/-- What the reader of numbers takes off a text. -/
theorem numberText_prefix {cs whole fraction : List Char} (h : numberText cs = (whole, fraction)) :
    whole = cs.takeWhile Char.isDigit ∧ (∀ d ∈ fraction, d.isDigit = true) ∧
      (fraction ≠ [] → whole ++ '.' :: fraction <+: cs) := by
  unfold numberText at h
  split at h
  · next rest hdrop =>
    cases h
    refine ⟨rfl, fun d hd => List.mem_takeWhile_imp hd, fun _ => ?_⟩
    calc cs.takeWhile Char.isDigit ++ '.' :: rest.takeWhile Char.isDigit
        <+: cs.takeWhile Char.isDigit ++ '.' :: rest :=
          (List.prefix_append_right_inj _).mpr
            (List.cons_prefix_cons.mpr ⟨rfl, List.takeWhile_prefix _⟩)
      _ = cs := by rw [← hdrop, List.takeWhile_append_dropWhile]
  · cases h
    exact ⟨rfl, nofun, fun hne => absurd rfl hne⟩

theorem lexed_readNumber {c : Char} (hc : c.isDigit = true) (rest : List Char) :
    Lexed (rest.length + 1) (readNumber (c :: rest)) := by
  rcases htext : numberText (c :: rest) with ⟨whole, fraction⟩
  obtain ⟨hwhole, hfraction, hinside⟩ := numberText_prefix htext
  rw [List.takeWhile_cons_of_pos hc] at hwhole
  have hdigits : ∀ d ∈ whole, d.isDigit = true := by
    rw [hwhole]
    rintro d hd
    rcases List.mem_cons.mp hd with rfl | hd
    · exact hc
    · exact List.mem_takeWhile_imp hd
  have hlength : whole.length ≤ rest.length + 1 := by
    rw [hwhole, List.length_cons]
    exact Nat.succ_le_succ (List.takeWhile_prefix _).length_le
  subst hwhole
  simp only [readNumber, htext]
  split
  · split
    · exact .token (Nat.succ_pos _) hlength
    · obtain ⟨x, hx⟩ := Decimal.exists_readFloat? (.whole hdigits)
      rw [hx]
      exact .token (Nat.succ_pos _) hlength
  · next hne =>
    obtain ⟨x, hx⟩ := Decimal.exists_readFloat? (.pointed hdigits hfraction)
    rw [hx]
    exact .token (Nat.succ_pos _) (hinside (fun h => hne (h ▸ rfl))).length_le

theorem Lexed.ite {length : Nat} {p : Prop} [Decidable p]
    {first other : Except LexError (Kind × Nat)} (hfirst : p → Lexed length first)
    (hother : Lexed length other) : Lexed length (if p then first else other) := by
  split
  · next h => exact hfirst h
  · exact hother

theorem lexed_lexeme (c : Char) (rest : List Char) : Lexed (rest.length + 1) (lexeme c rest) := by
  have hsign : ∀ {p : Prop} (kind : Kind), p → Lexed (rest.length + 1) (.ok (kind, 1)) :=
    fun _ _ => .token Nat.one_pos (Nat.le_add_left 1 _)
  have hequals : ∀ {p : Prop} (alone joined : Kind),
      p → Lexed (rest.length + 1) (withEquals alone joined rest) :=
    fun alone joined _ => lexed_withEquals alone joined rest
  unfold lexeme
  -- eight signs of one character and three that another `=` may follow come first
  refine .ite (hsign _) <| .ite (hsign _) <| .ite (hsign _) <| .ite (hsign _) <|
    .ite (hsign _) <| .ite (hsign _) <| .ite (hsign _) <| .ite (hsign _) <|
    .ite (hequals _ _) <| .ite (hequals _ _) <| .ite (hequals _ _) <|
    .ite ?loneEquals <| .ite ?string <| .ite (fun hdigit => lexed_readNumber hdigit rest) <|
    .ite ?word <| .stop nofun
  case loneEquals =>
    intro _
    split
    · exact .token Nat.two_pos (by rw [List.length_cons]; omega)
    · exact .stop nofun
  case string =>
    intro _
    split
    · next content taken hread =>
      obtain ⟨hlow, hhigh⟩ := readString_taken hread
      exact .token (by omega) (by omega)
    · exact .stop nofun
  case word =>
    intro _
    exact .token (Nat.succ_pos _) (Nat.succ_le_succ (List.takeWhile_prefix _).length_le)

/-! ## Runs of the scanner -/

/-- A run of the scanner over a text at an offset, and what it gives. Each step takes a blank or a
whole lexeme off the text. -/
inductive Scanned : Nat → List Char → Except (Nat × LexError) (List Token) → Prop
  | finish {offset : Nat} : Scanned offset [] (.ok [])
  | blank {offset : Nat} {c : Char} {rest : List Char} {result} (hblank : isBlank c = true)
    (h : Scanned (offset + c.utf8Size) rest result) : Scanned offset (c :: rest) result
  | stop {offset : Nat} {c : Char} {rest : List Char} {problem : LexError}
    (hblank : isBlank c = false) (hlexeme : lexeme c rest = .error problem) :
    Scanned offset (c :: rest) (.error (offset, problem))
  | token {offset : Nat} {c : Char} {text rest : List Char} {kind : Kind} {result}
    (hblank : isBlank c = false)
    (hlexeme : lexeme c (text ++ rest) = .ok (kind, text.length + 1))
    (h : Scanned (offset + (String.ofList (c :: text)).utf8ByteSize) rest result) :
    Scanned offset (c :: (text ++ rest)) (result.map (List.cons ⟨kind, offset⟩))

/-- The scanner makes a run over every text; it comes to an end since each lexeme makes the text
shorter. -/
theorem scanned_scan (offset : Nat) : ∀ cs, Scanned offset cs (scan offset 0 cs)
  | [] => .finish
  | c :: rest => by
    cases hblank : isBlank c with
    | true =>
      rw [scan_blank hblank]
      exact .blank hblank (scanned_scan _ rest)
    | false =>
      cases hlexeme : lexeme c rest with
      | error problem =>
        rw [scan_stop hblank hlexeme]
        exact .stop hblank hlexeme
      | ok lexed =>
        obtain ⟨kind, taken⟩ := lexed
        have hlexed := lexed_lexeme c rest
        rw [hlexeme] at hlexed
        cases hlexed with
        | token hpos hle =>
          obtain ⟨text, after, rfl, rfl⟩ : ∃ text after, rest = text ++ after ∧
              taken = text.length + 1 :=
            ⟨rest.take (taken - 1), rest.drop (taken - 1), (List.take_append_drop _ _).symm, by
              rw [List.length_take]
              omega⟩
          rw [scan_token hblank hlexeme]
          exact .token hblank hlexeme (scanned_scan _ after)
termination_by cs => cs.length

/-- There is no other run. -/
theorem Scanned.eq_scan {offset : Nat} {cs : List Char}
    {result : Except (Nat × LexError) (List Token)} (h : Scanned offset cs result) :
    result = scan offset 0 cs := by
  induction h with
  | finish => rfl
  | blank hblank _ ih => rw [scan_blank hblank, ih]
  | stop hblank hlexeme => rw [scan_stop hblank hlexeme]
  | token hblank hlexeme _ ih => rw [scan_token hblank hlexeme, ih]

theorem scanned_iff {offset : Nat} {cs : List Char}
    {result : Except (Nat × LexError) (List Token)} :
    Scanned offset cs result ↔ result = scan offset 0 cs :=
  ⟨Scanned.eq_scan, fun h => h ▸ scanned_scan offset cs⟩

/-- Induction along a run that gives tokens. -/
theorem Scanned.ok_induction
    {motive : ∀ offset cs tokens, Scanned offset cs (.ok tokens) → Prop}
    (finish : ∀ offset, motive offset [] [] .finish)
    (blank : ∀ offset c rest tokens (hblank : isBlank c = true)
      (h : Scanned (offset + c.utf8Size) rest (.ok tokens)),
      motive _ rest tokens h → motive offset (c :: rest) tokens (.blank hblank h))
    (token : ∀ offset c text rest kind tokens (hblank : isBlank c = false)
      (hlexeme : lexeme c (text ++ rest) = .ok (kind, text.length + 1))
      (h : Scanned (offset + (String.ofList (c :: text)).utf8ByteSize) rest (.ok tokens)),
      motive _ rest tokens h →
      motive offset (c :: (text ++ rest)) (⟨kind, offset⟩ :: tokens) (.token hblank hlexeme h))
    {offset : Nat} {cs : List Char} {tokens : List Token} (h : Scanned offset cs (.ok tokens)) :
    motive offset cs tokens h := by
  have hrun : ∀ {offset cs result} (h : Scanned offset cs result) tokens
      (hresult : result = .ok tokens), motive offset cs tokens (hresult ▸ h) := by
    intro offset cs result h
    induction h with
    | finish =>
      rintro tokens ⟨⟩
      exact finish _
    | blank hblank hrest ih =>
      rintro tokens rfl
      exact blank _ _ _ _ hblank hrest (ih tokens rfl)
    | stop => exact nofun
    | @token _ _ _ _ _ result hblank hlexeme hrest ih =>
      cases result with
      | error failure => exact nofun
      | ok tokens =>
        rintro _ ⟨⟩
        exact token _ _ _ _ _ _ hblank hlexeme hrest (ih tokens rfl)
  exact hrun h tokens rfl

/-- A run that fails does so at one of the characters, where there is no lexeme. -/
theorem Scanned.error {offset place : Nat} {cs : List Char} {problem : LexError}
    (h : Scanned offset cs (.error (place, problem))) :
    ∃ before c after, cs = before ++ c :: after ∧
      place = offset + (String.ofList before).utf8ByteSize ∧ lexeme c after = .error problem := by
  generalize hresult : Except.error (place, problem) = result at h
  induction h with
  | finish => cases hresult
  | @blank offset d _ _ _ _ ih =>
    obtain ⟨before, c, after, rfl, rfl, hlexeme⟩ := ih hresult
    refine ⟨d :: before, c, after, rfl, ?_, hlexeme⟩
    rw [utf8ByteSize_ofList_cons, Nat.add_assoc]
  | stop _ hlexeme =>
    cases hresult
    exact ⟨[], _, _, rfl, rfl, hlexeme⟩
  | @token _ d text _ _ result _ _ _ ih =>
    cases result with
    | ok tokens => cases hresult
    | error failure =>
      cases hresult
      obtain ⟨before, c, after, rfl, rfl, hlexeme⟩ := ih rfl
      refine ⟨d :: text ++ before, c, after, ?_, ?_, hlexeme⟩
      · simp only [List.cons_append, List.append_assoc]
      · rw [String.ofList_append, String.utf8ByteSize_append, Nat.add_assoc]

/-! ## Runs over whole texts -/

theorem scanned_of_tokenize {source : String} {tokens : List Token}
    (h : tokenize source = .ok tokens) :
    ∃ scanned, Scanned 0 source.toList (.ok scanned) ∧ joinNotIn scanned = tokens := by
  obtain ⟨scanned, hscan, hjoin⟩ := tokenize_eq_ok.mp h
  exact ⟨scanned, scanned_iff.mpr hscan.symm, hjoin⟩

theorem scanned_of_tokenize_error {source : String} {failure : Nat × LexError}
    (h : tokenize source = .error failure) : Scanned 0 source.toList (.error failure) :=
  scanned_iff.mpr (tokenize_eq_error.mp h).symm

end Token

end CorpusQuery
