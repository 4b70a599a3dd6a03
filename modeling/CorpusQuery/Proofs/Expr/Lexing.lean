import CorpusQuery.Proofs.Expr.Printing

/-!
# Tokens from texts

The scanner gives back the tokens that a text spells. The text of a word, a number or some of the
operators can run on into what follows it; a blank or a delimiter after it keeps them apart
(`Ends`). All other tokens end by themselves.
-/

namespace CorpusQuery

open Text

namespace Text

/-! ## Blanks -/

/-- The code points of the blanks. -/
def blankCodes : List Nat :=
  [0x09, 0x0A, 0x0B, 0x0C, 0x0D, 0x20, 0x85, 0xA0, 0x1680, 0x2000, 0x2001, 0x2002, 0x2003, 0x2004,
    0x2005, 0x2006, 0x2007, 0x2008, 0x2009, 0x200A, 0x2028, 0x2029, 0x202F, 0x205F, 0x3000]

theorem mem_blankCodes {c : Char} (h : isBlank c = true) : c.toNat ∈ blankCodes := by
  simp only [isBlank, Bool.or_eq_true, Bool.and_eq_true, decide_eq_true_eq, beq_iff_eq] at h
  simp only [blankCodes, List.mem_cons, List.not_mem_nil, or_false]
  omega

theorem isWordChar_of_mem_blankCodes : ∀ n ∈ blankCodes, isWordChar (Char.ofNat n) = false := by
  decide +kernel

/-- No blank is part of a word. -/
theorem isWordChar_of_isBlank {c : Char} (h : isBlank c = true) : isWordChar c = false := by
  rw [← Char.ofNat_toNat c]
  exact isWordChar_of_mem_blankCodes _ (mem_blankCodes h)

theorem isBlank_of_isWordChar {c : Char} (h : isWordChar c = true) : isBlank c = false := by
  cases hblank : isBlank c with
  | false => rfl
  | true =>
    rw [isWordChar_of_isBlank hblank] at h
    cases h

theorem isWordChar_of_isDigit {c : Char} (h : c.isDigit = true) : isWordChar c = true := by
  have hascii : c.toNat < 0x80 := by
    simp only [Char.isDigit, Bool.and_eq_true, decide_eq_true_eq] at h
    have hle : c.toNat ≤ 57 := h.2
    omega
  rw [isWordChar, isLetterOrDigit, if_pos hascii, Char.isAlphanum, h, Bool.or_true, Bool.true_or]

/-! ## Sizes -/

theorem utf8ByteSize_ofList_cons (c : Char) (cs : List Char) :
    (String.ofList (c :: cs)).utf8ByteSize = c.utf8Size + (String.ofList cs).utf8ByteSize := by
  rw [String.ofList_cons, String.utf8ByteSize_append, String.utf8ByteSize_singleton]

end Text

namespace Token

/-! ## Blanks and skipped characters -/

/-- Characters that belong to the token before are passed. -/
theorem scan_skip (cs rest : List Char) (offset : Nat) :
    scan offset cs.length (cs ++ rest) =
      scan (offset + (String.ofList cs).utf8ByteSize) 0 rest := by
  induction cs generalizing offset with
  | nil => rfl
  | cons c cs ih =>
    rw [utf8ByteSize_ofList_cons, ← Nat.add_assoc]
    exact ih (offset + c.utf8Size)

theorem scan_blank {c : Char} (h : isBlank c = true) (rest : List Char) (offset : Nat) :
    scan offset 0 (c :: rest) = scan (offset + c.utf8Size) 0 rest := by
  rw [scan, if_pos h]

theorem scan_stop {c : Char} {rest : List Char} {problem : LexError} (hblank : isBlank c = false)
    (hlexeme : lexeme c rest = .error problem) (offset : Nat) :
    scan offset 0 (c :: rest) = .error (offset, problem) := by
  rw [scan, hblank, if_neg Bool.false_ne_true, hlexeme]

/-- The scanner takes a lexeme and goes on right behind it. -/
theorem scan_token {c : Char} {text rest : List Char} {kind : Kind} (hblank : isBlank c = false)
    (hlexeme : lexeme c (text ++ rest) = .ok (kind, text.length + 1)) (offset : Nat) :
    scan offset 0 (c :: (text ++ rest)) =
      (scan (offset + (String.ofList (c :: text)).utf8ByteSize) 0 rest).map
        (List.cons ⟨kind, offset⟩) := by
  rw [scan, hblank, if_neg Bool.false_ne_true, hlexeme]
  dsimp only
  rw [Nat.add_sub_cancel, scan_skip, utf8ByteSize_ofList_cons, Nat.add_assoc]
  cases scan (offset + (c.utf8Size + (String.ofList text).utf8ByteSize)) 0 rest <;> rfl

theorem areBlanks_nil : AreBlanks [] := fun _ hc => absurd hc List.not_mem_nil

theorem areBlanks_blank : AreBlanks [' '] := by
  intro c hc
  rw [List.mem_singleton.mp hc]
  decide

theorem scan_gap {gap : List Char} (hgap : AreBlanks gap) (rest : List Char) (offset : Nat) :
    ∃ next, scan offset 0 (gap ++ rest) = scan next 0 rest := by
  induction gap generalizing offset with
  | nil => exact ⟨offset, rfl⟩
  | cons c gap ih =>
    obtain ⟨next, hnext⟩ :=
      ih (fun d hd => hgap d (List.mem_cons_of_mem _ hd)) (offset + c.utf8Size)
    refine ⟨next, ?_⟩
    rw [List.cons_append, scan_blank (hgap c List.mem_cons_self), hnext]

/-! ## Strings -/

theorem readString_escapes {s t : List Char} (h : Escapes s t) (content : List Char) (taken : Nat)
    (rest : List Char) :
    readString content taken (s ++ '"' :: rest) =
      some (String.ofList (content.reverse ++ t), taken + s.length + 1) := by
  have hpair : ∀ (c : Char) (s : List Char) (content : List Char) (taken : Nat),
      readString content taken ('\\' :: c :: s) =
        readString (unescape c ++ content) (taken + 2) s := by
    intro c s content taken
    rw [readString]
  induction h generalizing content taken with
  | nil => rw [List.nil_append, readString, List.append_nil, List.length_nil, Nat.add_zero]
  | @plain c s t hquote hbackslash _ ih =>
    have hstep : ∀ rest, readString content taken (c :: rest) =
        readString (c :: content) (taken + 1) rest := by
      intro rest
      rw [readString]
      · exact hquote
      · exact fun heq => absurd heq hbackslash
      · exact fun _ _ heq => absurd heq hbackslash
    rw [List.cons_append, hstep, ih, List.reverse_cons, List.append_assoc, List.singleton_append,
      List.length_cons]
    congr 2
    omega
  | newline _ ih | tab _ ih | backslash _ ih | quote _ ih =>
    rw [List.cons_append, List.cons_append, hpair, ih]
    simp [unescape]
    omega
  | @other c s t hc _ ih =>
    simp only [List.mem_cons, List.not_mem_nil, or_false, not_or] at hc
    obtain ⟨hn, ht, hbackslash, hquote⟩ := hc
    rw [List.cons_append, List.cons_append, hpair, ih]
    simp [unescape, hn, ht, hbackslash, hquote]
    omega

/-! ## Single tokens -/

/-- The text after a token starts with no character that would go on with the token. -/
def Ends : Kind → List Char → Prop
  | .name _, rest | .and, rest | .or, rest | .compare .isIn, rest =>
    ∀ c ∈ rest.head?, isWordChar c = false
  | .number _, rest => ∀ c ∈ rest.head?, c.isDigit = false ∧ c ≠ '.'
  | .bang, rest | .compare .lt, rest | .compare .gt, rest => ∀ c ∈ rest.head?, c ≠ '='
  | _, _ => True

/-- A token that the scanner can give. -/
def Kind.IsProper : Kind → Prop
  | .name word => Expr.IsWord word
  | .number (.int i) => 0 ≤ i.toInt
  | .number (.float _) => True
  | .number _ => False
  | .str s => Expr.Guarded s.toList
  | _ => True

theorem takeWhile_append_of_head {p : Char → Bool} {cs rest : List Char}
    (hcs : ∀ c ∈ cs, p c = true) (hrest : ∀ c ∈ rest.head?, p c = false) :
    (cs ++ rest).takeWhile p = cs ∧ (cs ++ rest).dropWhile p = rest := by
  rw [List.takeWhile_append_of_pos hcs, List.dropWhile_append_of_pos hcs]
  cases rest with
  | nil => exact ⟨List.append_nil _, rfl⟩
  | cons c rest =>
    have hc := hrest c rfl
    rw [List.takeWhile_cons_of_neg (by rw [hc]; exact Bool.false_ne_true),
      List.dropWhile_cons_of_neg (by rw [hc]; exact Bool.false_ne_true), List.append_nil]
    exact ⟨rfl, rfl⟩

/-- A character that is no sign of the language starts a string, a number or a word. -/
theorem lexeme_of_isWordChar {c : Char} (h : isWordChar c = true) (rest : List Char) :
    lexeme c rest =
      if c.isDigit then readNumber (c :: rest)
      else .ok (ofWord (c :: rest.takeWhile isWordChar),
        (c :: rest.takeWhile isWordChar).length) := by
  have hne : ∀ d, isWordChar d = false → c ≠ d := by
    intro d hd heq
    rw [heq, hd] at h
    cases h
  unfold lexeme
  rw [if_neg (hne '(' (by decide)), if_neg (hne ')' (by decide)), if_neg (hne '.' (by decide)),
    if_neg (hne ',' (by decide)), if_neg (hne '+' (by decide)), if_neg (hne '-' (by decide)),
    if_neg (hne '*' (by decide)), if_neg (hne '/' (by decide)), if_neg (hne '!' (by decide)),
    if_neg (hne '<' (by decide)), if_neg (hne '>' (by decide)), if_neg (hne '=' (by decide)),
    if_neg (hne '"' (by decide)), if_pos h]

theorem lexeme_word {c : Char} {cs rest : List Char} (hchars : ∀ d ∈ c :: cs, isWordChar d = true)
    (hfirst : c.isDigit = false) (hrest : ∀ d ∈ rest.head?, isWordChar d = false) :
    lexeme c (cs ++ rest) = .ok (ofWord (c :: cs), cs.length + 1) := by
  have htake := (takeWhile_append_of_head
    (fun d hd => hchars d (List.mem_cons_of_mem _ hd)) hrest).1
  rw [lexeme_of_isWordChar (hchars c List.mem_cons_self), hfirst, htake,
    if_neg Bool.false_ne_true, List.length_cons]

theorem ofWord_of_isWord {word : String} (h : Expr.IsWord word) :
    ofWord word.toList = .name word := by
  obtain ⟨hand, hor, hin⟩ := h.free
  have hne : ∀ other : List Char, word ≠ String.ofList other → word.toList ≠ other := by
    intro other hother heq
    rw [← heq, String.ofList_toList] at hother
    exact hother rfl
  unfold ofWord
  rw [if_neg (hne _ hand), if_neg (hne _ hor), if_neg (hne _ hin), String.ofList_toList]

theorem natOfDigits_eq (digits : List Char) :
    Decimal.natOfDigits 0 digits = Nat.ofDigitChars 10 digits 0 := by
  rw [Nat.ofDigitChars_eq_foldl]
  rfl

theorem numberText_digits {digits rest : List Char} (hdigits : ∀ c ∈ digits, c.isDigit = true)
    (hrest : ∀ c ∈ rest.head?, c.isDigit = false ∧ c ≠ '.') :
    numberText (digits ++ rest) = (digits, []) := by
  obtain ⟨htake, hdrop⟩ := takeWhile_append_of_head hdigits fun c hc => (hrest c hc).1
  unfold numberText
  rw [htake, hdrop]
  cases rest with
  | nil => rfl
  | cons c rest =>
    have hdot := (hrest c rfl).2
    split
    · next heq =>
      cases heq
      exact absurd rfl hdot
    · rfl

theorem readNumber_of_whole {cs whole : List Char} {i : Int64} (h : numberText cs = (whole, []))
    (hint : Value.int64? (Decimal.natOfDigits 0 whole) = some i) :
    readNumber cs = .ok (.number (.int i), whole.length) := by
  simp only [readNumber, h, hint, List.isEmpty_nil, if_true]

theorem int64?_natOfDigits {digits : List Char} {i : Int64}
    (hvalue : (Nat.ofDigitChars 10 digits 0 : Int) = i.toInt) :
    Value.int64? (Decimal.natOfDigits 0 digits) = some i := by
  rw [natOfDigits_eq, hvalue, Value.int64?_eq_some_iff]

theorem lexeme_number {i : Int64} {c : Char} {cs rest : List Char}
    (hdigits : ∀ d ∈ c :: cs, d.isDigit = true)
    (hvalue : (Nat.ofDigitChars 10 (c :: cs) 0 : Int) = i.toInt)
    (hrest : ∀ d ∈ rest.head?, d.isDigit = false ∧ d ≠ '.') :
    lexeme c (cs ++ rest) = .ok (.number (.int i), cs.length + 1) := by
  have hc := hdigits c List.mem_cons_self
  have hread := readNumber_of_whole (numberText_digits hdigits hrest) (int64?_natOfDigits hvalue)
  rw [List.cons_append, List.length_cons] at hread
  rw [lexeme_of_isWordChar (isWordChar_of_isDigit hc), if_pos hc, hread]

theorem isWord_starts {word : String} (h : Expr.IsWord word) :
    ∃ c cs, word.toList = c :: cs ∧ (∀ d ∈ c :: cs, isWordChar d = true) ∧ c.isDigit = false := by
  cases hword : word.toList with
  | nil => exact absurd hword h.nonempty
  | cons c cs =>
    refine ⟨c, cs, rfl, fun d hd => h.chars d (hword ▸ hd), h.first c ?_⟩
    rw [hword]
    rfl

/-- The tokens with one text each, followed by what does not go on with them. -/
theorem lexeme_sign {kind : Kind} {text : String} (h : (kind, text) ∈ signs) {rest : List Char}
    (hrest : Ends kind rest) :
    ∃ c cs, text.toList = c :: cs ∧ isBlank c = false ∧
      lexeme c (cs ++ rest) = .ok (kind, cs.length + 1) := by
  have hequals : ∀ alone joined : Kind, (∀ c ∈ rest.head?, c ≠ '=') →
      withEquals alone joined rest = .ok (alone, 1) := by
    intro alone joined hne
    unfold withEquals
    split
    · exact absurd rfl (hne '=' rfl)
    · rfl
  simp only [signs, List.mem_cons, Prod.mk.injEq, List.not_mem_nil, or_false] at h
  rcases h with ⟨rfl, rfl⟩ | ⟨rfl, rfl⟩ | ⟨rfl, rfl⟩ | ⟨rfl, rfl⟩ | ⟨rfl, rfl⟩ | ⟨rfl, rfl⟩ |
    ⟨rfl, rfl⟩ | ⟨rfl, rfl⟩ | ⟨rfl, rfl⟩ | ⟨rfl, rfl⟩ | ⟨rfl, rfl⟩ | ⟨rfl, rfl⟩ | ⟨rfl, rfl⟩ |
    ⟨rfl, rfl⟩ | ⟨rfl, rfl⟩ | ⟨rfl, rfl⟩ | ⟨rfl, rfl⟩ | ⟨rfl, rfl⟩
  · exact ⟨'a', ['n', 'd'], rfl, by decide,
      lexeme_word (List.all_eq_true.mp (by decide)) (by decide) hrest⟩
  · exact ⟨'o', ['r'], rfl, by decide,
      lexeme_word (List.all_eq_true.mp (by decide)) (by decide) hrest⟩
  · exact ⟨'i', ['n'], rfl, by decide,
      lexeme_word (List.all_eq_true.mp (by decide)) (by decide) hrest⟩
  · exact ⟨'!', [], rfl, by decide, hequals _ _ hrest⟩
  · exact ⟨'.', [], rfl, by decide, rfl⟩
  · exact ⟨',', [], rfl, by decide, rfl⟩
  · exact ⟨'(', [], rfl, by decide, rfl⟩
  · exact ⟨')', [], rfl, by decide, rfl⟩
  · exact ⟨'+', [], rfl, by decide, rfl⟩
  · exact ⟨'-', [], rfl, by decide, rfl⟩
  · exact ⟨'*', [], rfl, by decide, rfl⟩
  · exact ⟨'/', [], rfl, by decide, rfl⟩
  · exact ⟨'=', ['='], rfl, by decide, rfl⟩
  · exact ⟨'!', ['='], rfl, by decide, rfl⟩
  · exact ⟨'<', [], rfl, by decide, hequals _ _ hrest⟩
  · exact ⟨'<', ['='], rfl, by decide, rfl⟩
  · exact ⟨'>', [], rfl, by decide, hequals _ _ hrest⟩
  · exact ⟨'>', ['='], rfl, by decide, rfl⟩

/-- The text of a token other than `not in` is one lexeme. -/
theorem lexeme_of_spelling {kind : Kind} {text rest : List Char} (h : Spelling kind text)
    (hkind : kind ≠ .compare .notIn) (hproper : kind.IsProper) (hrest : Ends kind rest) :
    ∃ c cs, text = c :: cs ∧ isBlank c = false ∧
      lexeme c (cs ++ rest) = .ok (kind, cs.length + 1) := by
  cases h with
  | sign hsign => exact lexeme_sign hsign hrest
  | notIn => exact absurd rfl hkind
  | name word =>
    obtain ⟨c, cs, hword, hchars, hfirst⟩ := isWord_starts hproper
    refine ⟨c, cs, hword, isBlank_of_isWordChar (hchars c List.mem_cons_self), ?_⟩
    rw [lexeme_word hchars hfirst hrest, ← hword, ofWord_of_isWord hproper]
  | number hne hdigits hvalue =>
    cases text with
    | nil => exact absurd rfl hne
    | cons c cs =>
      have hc := isWordChar_of_isDigit (hdigits c List.mem_cons_self)
      exact ⟨c, cs, rfl, isBlank_of_isWordChar hc, lexeme_number hdigits hvalue hrest⟩
  | @str content source hescapes =>
    refine ⟨'"', source ++ ['"'], rfl, by decide, ?_⟩
    have hread := readString_escapes hescapes [] 1 rest
    rw [List.reverse_nil, List.nil_append, String.ofList_toList] at hread
    rw [List.append_assoc, List.singleton_append, List.length_append, List.length_singleton]
    unfold lexeme
    rw [hread, Nat.add_comm 1]
    rfl

/-! ## Tokens in a row -/

/-- The scanner takes the text of a token and goes on after it. -/
theorem scan_spelling {kind : Kind} {gap text rest : List Char} (hgap : AreBlanks gap)
    (h : Spelling kind text) (hkind : kind ≠ .compare .notIn) (hproper : kind.IsProper)
    (hrest : Ends kind rest) (offset : Nat) :
    ∃ position next, ∀ tokens, scan next 0 rest = .ok tokens →
      scan offset 0 (gap ++ text ++ rest) = .ok (⟨kind, position⟩ :: tokens) := by
  obtain ⟨c, cs, rfl, hblank, hlexeme⟩ := lexeme_of_spelling h hkind hproper hrest
  obtain ⟨position, hposition⟩ := scan_gap hgap (c :: (cs ++ rest)) offset
  refine ⟨position, position + (String.ofList (c :: cs)).utf8ByteSize, fun tokens htokens => ?_⟩
  rw [List.append_assoc, List.cons_append, hposition, scan_token hblank hlexeme, htokens]
  rfl

theorem joinNotIn_cons {token : Token} {tokens : List Token}
    (h : token.kind = .name "not" → ∀ next ∈ tokens.head?, next.kind ≠ .compare .isIn) :
    joinNotIn (token :: tokens) = token :: joinNotIn tokens := by
  by_cases hpair : ∃ word position inPosition rest, token = ⟨.name word, position⟩ ∧
      tokens = ⟨.compare .isIn, inPosition⟩ :: rest
  · obtain ⟨word, position, inPosition, rest, rfl, rfl⟩ := hpair
    have hword : word ≠ "not" := by
      rintro rfl
      exact h rfl _ rfl rfl
    have hrest : joinNotIn (⟨.compare .isIn, inPosition⟩ :: rest) =
        ⟨.compare .isIn, inPosition⟩ :: joinNotIn rest := by
      rw [joinNotIn]
      intro other place inPlace others hother
      cases hother
    rw [joinNotIn, if_neg hword, hrest]
  · rw [joinNotIn]
    intro word position inPosition rest htoken htokens
    exact hpair ⟨word, position, inPosition, rest, htoken, htokens⟩

theorem joinNotIn_pair (position inPosition : Nat) (rest : List Token) :
    joinNotIn (⟨.name "not", position⟩ :: ⟨.compare .isIn, inPosition⟩ :: rest) =
      ⟨.compare .notIn, position⟩ :: joinNotIn rest := by
  rw [joinNotIn, if_pos rfl]

/-- Induction along `joinNotIn`: the words `not` and `in` are joined, any other token is kept. -/
theorem joinNotIn_induction {motive : List Token → Prop} (nil : motive [])
    (joined : ∀ position inPosition rest, motive rest →
      motive (⟨.name "not", position⟩ :: ⟨.compare .isIn, inPosition⟩ :: rest))
    (kept : ∀ token rest,
      (token.kind = .name "not" → ∀ next ∈ rest.head?, next.kind ≠ .compare .isIn) →
      motive rest → motive (token :: rest))
    (tokens : List Token) : motive tokens := by
  induction tokens using joinNotIn.induct with
  | case1 => exact nil
  | case2 position inPosition rest ih => exact joined position inPosition rest ih
  | case3 word position inPosition rest hword ih =>
    refine kept _ _ (fun hname => ?_) (kept _ _ nofun ih)
    cases hname
    exact absurd rfl hword
  | case4 token rest hpair ih =>
    refine kept _ _ (fun hname next hnext hkind => ?_) ih
    obtain ⟨kind, position⟩ := token
    obtain ⟨nextKind, inPosition⟩ := next
    cases rest with
    | nil => cases hnext
    | cons other rest =>
      cases hnext
      cases hname
      cases hkind
      exact hpair _ _ _ _ rfl rfl

theorem joinNotIn_head {tokens : List Token} {next : Token} (h : next ∈ tokens.head?)
    (hkind : next.kind = .compare .isIn) :
    (joinNotIn tokens).map Token.kind = .compare .isIn ::
      (joinNotIn tokens.tail).map Token.kind := by
  cases tokens with
  | nil => cases h
  | cons first rest =>
    cases h
    rw [joinNotIn_cons, List.map_cons, hkind, List.tail_cons]
    intro hword
    rw [hkind] at hword
    cases hword

/-- The scanner gives the tokens for the text. -/
def Reads (text : List Char) (kinds : List Kind) : Prop :=
  ∀ offset, ∃ tokens, scan offset 0 text = .ok tokens ∧ (joinNotIn tokens).map Token.kind = kinds

section Reads

variable {kind : Kind} {kinds : List Kind} {gap text rest : List Char}

theorem reads_nil : Reads [] [] :=
  fun _ => ⟨[], rfl, rfl⟩

theorem Reads.after_blanks (h : Reads rest kinds) (hgap : AreBlanks gap) :
    Reads (gap ++ rest) kinds := by
  intro offset
  obtain ⟨next, hnext⟩ := scan_gap hgap rest offset
  rw [hnext]
  exact h next

theorem Reads.cons (h : Reads rest kinds) (hgap : AreBlanks gap) (hspelling : Spelling kind text)
    (hproper : kind.IsProper) (hkind : kind ≠ .compare .notIn) (hends : Ends kind rest)
    (hnext : kind = .name "not" → kinds.head? ≠ some (.compare .isIn)) :
    Reads (gap ++ text ++ rest) (kind :: kinds) := by
  intro offset
  obtain ⟨position, next, hscan⟩ := scan_spelling hgap hspelling hkind hproper hends offset
  obtain ⟨tokens, htokens, hkinds⟩ := h next
  refine ⟨_, hscan tokens htokens, ?_⟩
  rw [joinNotIn_cons, List.map_cons, hkinds]
  intro hnot token htoken htokenKind
  rw [joinNotIn_head htoken htokenKind] at hkinds
  exact hnext hnot (hkinds ▸ rfl)

/-- The words `not` and `in` with blanks between them are one operator. -/
theorem Reads.cons_notIn {between : List Char} (h : Reads rest kinds) (hgap : AreBlanks gap)
    (hbetween : AreBlanks between) (hne : between ≠ []) (hends : Ends (.compare .isIn) rest) :
    Reads (gap ++ ("not".toList ++ between ++ "in".toList) ++ rest) (.compare .notIn :: kinds) := by
  intro offset
  have hnot : Expr.IsWord "not" := by decide
  have hblank : Ends (.name "not") (between ++ "in".toList ++ rest) := by
    intro c hc
    cases between with
    | nil => exact absurd rfl hne
    | cons blank between =>
      cases hc
      exact isWordChar_of_isBlank (hbetween _ List.mem_cons_self)
  obtain ⟨position, next, hscanNot⟩ :=
    scan_spelling hgap (.name "not") Kind.noConfusion hnot hblank offset
  have hin : Spelling (.compare .isIn) "in".toList := .sign (by simp [signs])
  obtain ⟨inPosition, after, hscanIn⟩ :=
    scan_spelling hbetween hin (fun heq => by cases heq) trivial hends next
  obtain ⟨tokens, htokens, hkinds⟩ := h after
  refine ⟨⟨.name "not", position⟩ :: ⟨.compare .isIn, inPosition⟩ :: tokens, ?_, ?_⟩
  · rw [← hscanNot _ (hscanIn tokens htokens)]
    simp only [List.append_assoc]
  · rw [joinNotIn_pair, List.map_cons, hkinds]

/-- Any token but a name: what comes before it does not matter. -/
theorem Reads.cons_sign (h : Reads rest kinds) (hgap : AreBlanks gap)
    (hspelling : Spelling kind text) (hproper : kind.IsProper) (hname : ∀ word, kind ≠ .name word)
    (hends : ∀ other, Ends other rest) : Reads (gap ++ text ++ rest) (kind :: kinds) := by
  by_cases hkind : kind = .compare .notIn
  · subst hkind
    cases hspelling with
    | sign hsign => simp [signs] at hsign
    | notIn hbetween hne => exact h.cons_notIn hgap hbetween hne (hends _)
  · exact h.cons hgap hspelling hproper hkind (hends kind) fun heq => absurd heq (hname _)

end Reads

/-- Whatever text the tokens have, the scanner gives them back. -/
def Scans (kinds : List Kind) : Prop :=
  ∀ text, Spells kinds text → Reads text kinds

theorem scans_nil : Scans [] := by
  intro text htext
  cases htext with
  | nil hgap =>
    rw [← List.append_nil text]
    exact reads_nil.after_blanks hgap

/-- The tokens are such that no text of them goes on with the token before. -/
def Follows (kind : Kind) (kinds : List Kind) : Prop :=
  ∀ text, Spells kinds text → Ends kind text

theorem Scans.cons {kind : Kind} {kinds : List Kind} (h : Scans kinds) (hproper : kind.IsProper)
    (hkind : kind ≠ .compare .notIn) (hends : Follows kind kinds)
    (hnext : kind = .name "not" → kinds.head? ≠ some (.compare .isIn)) :
    Scans (kind :: kinds) := by
  intro text htext
  cases htext with
  | @cons gap text rest _ _ hgap hspelling hrest =>
    exact (h rest hrest).cons hgap hspelling hproper hkind (hends rest hrest) hnext

theorem Scans.cons_sign {kind : Kind} {kinds : List Kind} (h : Scans kinds)
    (hproper : kind.IsProper) (hkind : kind ≠ .compare .notIn) (hname : ∀ word, kind ≠ .name word)
    (hends : Follows kind kinds) : Scans (kind :: kinds) :=
  h.cons hproper hkind hends fun hnot => absurd hnot (hname _)

theorem Scans.cons_notIn {kinds : List Kind} (h : Scans kinds)
    (hends : Follows (.compare .isIn) kinds) : Scans (.compare .notIn :: kinds) := by
  intro text htext
  cases htext with
  | @cons gap text rest _ _ hgap hspelling hrest =>
    cases hspelling with
    | sign hsign => simp [signs] at hsign
    | notIn hbetween hne => exact (h rest hrest).cons_notIn hgap hbetween hne (hends rest hrest)

end Token

theorem tokenize_eq_ok {source : String} {tokens : List Token} :
    tokenize source = .ok tokens ↔
      ∃ scanned, Token.scan 0 0 source.toList = .ok scanned ∧ Token.joinNotIn scanned = tokens := by
  unfold tokenize
  cases Token.scan 0 0 source.toList with
  | error failure => exact ⟨nofun, nofun⟩
  | ok scanned =>
    constructor
    · rintro ⟨⟩
      exact ⟨scanned, rfl, rfl⟩
    · rintro ⟨_, ⟨⟩, rfl⟩
      rfl

theorem tokenize_eq_error {source : String} {failure : Nat × LexError} :
    tokenize source = .error failure ↔ Token.scan 0 0 source.toList = .error failure := by
  unfold tokenize
  cases Token.scan 0 0 source.toList with
  | error other => exact Iff.rfl
  | ok scanned => exact ⟨nofun, nofun⟩

end CorpusQuery
