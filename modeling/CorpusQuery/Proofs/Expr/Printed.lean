import CorpusQuery.Proofs.Expr.Scanning

/-!
# Texts of trees

The scanner gives back the tokens of a tree from each of its texts: those tokens that could run on
are followed by a parenthesis, a comma or the end, and a name also by a point. Each tree that can be
printed has a text.
-/

namespace CorpusQuery

open Token Text

namespace Token

/-! ## Delimiters -/

/-- The tokens start with a parenthesis or a comma, or there are none. -/
def Delimits (kinds : List Kind) : Prop :=
  ∀ kind ∈ kinds.head?, kind = .opening ∨ kind = .closing ∨ kind = .comma

theorem delimits_nil : Delimits [] := by
  intro kind hkind
  cases hkind

theorem delimits_closing (kinds : List Kind) : Delimits (.closing :: kinds) := by
  intro kind hkind
  cases hkind
  exact .inr (.inl rfl)

theorem delimits_comma (kinds : List Kind) : Delimits (.comma :: kinds) := by
  intro kind hkind
  cases hkind
  exact .inr (.inr rfl)

theorem delimits_group (inner kinds : List Kind) : Delimits (Expr.group inner ++ kinds) := by
  intro kind hkind
  cases hkind
  exact .inl rfl

theorem text_of_delimiter {kind : Kind} {text : List Char} (h : Spelling kind text)
    (hkind : kind = .opening ∨ kind = .closing ∨ kind = .comma) :
    text = ['('] ∨ text = [')'] ∨ text = [','] := by
  rcases hkind with rfl | rfl | rfl
  all_goals
    cases h with
    | sign hsign =>
      simp [signs] at hsign
      subst hsign
      decide

/-- The text is empty, or starts with a blank, a parenthesis or a comma. -/
def Breaks (text : List Char) : Prop :=
  ∀ c ∈ text.head?, isBlank c = true ∨ c = '(' ∨ c = ')' ∨ c = ','

theorem breaks_nil : Breaks [] := by
  intro c hc
  cases hc

theorem breaks_blank (rest : List Char) : Breaks (' ' :: rest) := by
  rintro c ⟨⟩
  exact .inl (by decide)

theorem breaks_closing (rest : List Char) : Breaks (')' :: rest) := by
  rintro c ⟨⟩
  exact .inr (.inr (.inl rfl))

/-- No token goes on there. -/
theorem Breaks.ends {text : List Char} (h : Breaks text) (kind : Kind) : Ends kind text := by
  have hword : ∀ c ∈ text.head?, isWordChar c = false := by
    intro c hc
    rcases h c hc with hblank | rfl | rfl | rfl
    · exact isWordChar_of_isBlank hblank
    · decide
    · decide
    · decide
  have hne : ∀ d, isBlank d = false → d ∉ ['(', ')', ','] → ∀ c ∈ text.head?, c ≠ d := by
    rintro d hd hnot c hc rfl
    rcases h c hc with hblank | rfl | rfl | rfl
    · rw [hd] at hblank
      cases hblank
    · exact hnot (by decide)
    · exact hnot (by decide)
    · exact hnot (by decide)
  have hnumber : ∀ c ∈ text.head?, c.isDigit = false ∧ c ≠ '.' := by
    intro c hc
    refine ⟨?_, hne '.' (by decide) (by decide) c hc⟩
    cases hdigit : c.isDigit with
    | false => rfl
    | true =>
      have := isWordChar_of_isDigit hdigit
      rw [hword c hc] at this
      cases this
  have hequals := hne '=' (by decide) (by decide)
  cases kind with
  | name | and | or => exact hword
  | number => exact hnumber
  | bang => exact hequals
  | compare op =>
    cases op with
    | isIn => exact hword
    | lt | gt => exact hequals
    | _ => trivial
  | _ => trivial

theorem breaks_of_delimits {kinds : List Kind} {text : List Char} (h : Delimits kinds)
    (hspells : Spells kinds text) : Breaks text := by
  intro c hc
  cases hspells with
  | nil hgap => exact .inl (hgap c (List.mem_of_mem_head? hc))
  | @cons gap text rest kind kinds hgap hspelling _ =>
    cases gap with
    | cons d gap =>
      cases hc
      exact .inl (hgap _ List.mem_cons_self)
    | nil =>
      right
      rcases text_of_delimiter hspelling (h kind rfl) with rfl | rfl | rfl
      · cases hc
        exact .inl rfl
      · cases hc
        exact .inr (.inl rfl)
      · cases hc
        exact .inr (.inr rfl)

/-- Nothing goes on before a delimiter. -/
theorem follows_of_delimits {kinds : List Kind} (h : Delimits kinds) (kind : Kind) :
    Follows kind kinds :=
  fun _ htext => (breaks_of_delimits h htext).ends kind

theorem follows_dot (word : String) (kinds : List Kind) :
    Follows (.name word) (.dot :: kinds) := by
  intro text htext c hc
  cases htext with
  | @cons gap text rest _ _ hgap hspelling _ =>
    cases gap with
    | cons d gap =>
      cases hc
      exact isWordChar_of_isBlank (hgap _ List.mem_cons_self)
    | nil =>
      cases hspelling with
      | sign hsign =>
        simp [signs] at hsign
        subst hsign
        cases hc
        decide

end Token

namespace Expr

/-! ## The tokens of a tree come back -/

/-- Tokens that come back if those after them do and start with a delimiter. -/
def ScansBefore (inner : List Kind) : Prop :=
  ∀ kinds, Scans kinds → Delimits kinds → Scans (inner ++ kinds)

theorem scansBefore_pathKinds {path : List String} (h : ∀ word ∈ path, IsWord word) :
    ScansBefore (pathKinds path) := by
  induction path using pathKinds.induct with
  | case1 => exact fun kinds hkinds _ => hkinds
  | case2 word =>
    intro kinds hkinds hdelimits
    refine hkinds.cons (h word List.mem_cons_self) Kind.noConfusion
      (follows_of_delimits hdelimits _) fun _ hin => ?_
    rcases hdelimits _ hin with heq | heq | heq <;> cases heq
  | case3 word path hpath ih =>
    intro kinds hkinds hdelimits
    have hrest := ih (fun other hother => h other (List.mem_cons_of_mem _ hother)) kinds hkinds
      hdelimits
    have hdot : Scans (.dot :: (pathKinds path ++ kinds)) :=
      hrest.cons_sign trivial Kind.noConfusion (fun _ => Kind.noConfusion) fun _ _ => trivial
    rw [pathKinds]
    · exact hdot.cons (h word List.mem_cons_self) Kind.noConfusion (follows_dot word _)
        fun _ heq => by cases heq
    · exact hpath

theorem scansBefore_constant {value : Value} (h : IsConstant value) :
    ScansBefore [constantKind value] := by
  intro kinds hkinds hdelimits
  have hends := follows_of_delimits hdelimits
  cases h with
  | int hint => exact hkinds.cons_sign hint Kind.noConfusion (fun _ => Kind.noConfusion) (hends _)
  | str hstr => exact hkinds.cons_sign hstr Kind.noConfusion (fun _ => Kind.noConfusion) (hends _)

theorem scansBefore_arg {arg : Arg} (h : IsPrintableArg arg) : ScansBefore (argKinds arg) := by
  cases h with
  | literal h => exact scansBefore_constant h
  | attr h => exact scansBefore_pathKinds h.words

theorem scansBefore_args {args : List Arg} (h : ∀ arg ∈ args, IsPrintableArg arg) :
    ScansBefore (argsKinds args) := by
  induction args using argsKinds.induct with
  | case1 => exact fun kinds hkinds _ => hkinds
  | case2 arg => exact scansBefore_arg (h arg List.mem_cons_self)
  | case3 arg args hargs ih =>
    intro kinds hkinds hdelimits
    have hrest := ih (fun other hother => h other (List.mem_cons_of_mem _ hother)) kinds hkinds
      hdelimits
    have hcomma : Scans (.comma :: (argsKinds args ++ kinds)) :=
      hrest.cons_sign trivial Kind.noConfusion (fun _ => Kind.noConfusion) fun _ _ => trivial
    rw [argsKinds, List.append_assoc]
    · exact scansBefore_arg (h arg List.mem_cons_self) _ hcomma (delimits_comma _)
    · exact hargs

theorem scans_group {inner kinds : List Kind} (h : ScansBefore inner) (hkinds : Scans kinds) :
    Scans (group inner ++ kinds) := by
  have hclosing : Scans (.closing :: kinds) :=
    hkinds.cons_sign trivial Kind.noConfusion (fun _ => Kind.noConfusion) fun _ _ => trivial
  have hinner := h _ hclosing (delimits_closing kinds)
  rw [group, List.cons_append, List.append_assoc, List.singleton_append]
  exact hinner.cons_sign trivial Kind.noConfusion (fun _ => Kind.noConfusion) fun _ _ => trivial

/-- An operator between two operands in parentheses. -/
theorem scansBefore_operator {kind : Kind} {left right : List Kind} (hl : ScansBefore left)
    (hr : ScansBefore right)
    (hkind : ∀ kinds, Scans kinds → Delimits kinds → Scans (kind :: kinds)) :
    ScansBefore (group left ++ kind :: group right) := by
  intro kinds hkinds _
  have hright := scans_group hr hkinds
  rw [List.append_assoc, List.cons_append]
  exact scans_group hl (hkind _ hright (delimits_group _ _))

theorem scans_compare (op : CompareOp) {kinds : List Kind} (h : Scans kinds)
    (hdelimits : Delimits kinds) : Scans (.compare op :: kinds) := by
  have hends := follows_of_delimits hdelimits
  by_cases hop : op = .notIn
  · subst hop
    exact h.cons_notIn (hends _)
  · refine h.cons_sign trivial ?_ (fun _ => Kind.noConfusion) (hends _)
    intro heq
    cases heq
    exact hop rfl

theorem scansBefore_kinds {e : Expr} (h : WellFormed e) : ScansBefore e.kinds := by
  have hsign : ∀ kind, kind.IsProper → kind ≠ .compare .notIn → (∀ word, kind ≠ .name word) →
      ∀ kinds, Scans kinds → Delimits kinds → Scans (kind :: kinds) :=
    fun kind hproper hkind hname kinds hkinds hdelimits =>
      hkinds.cons_sign hproper hkind hname (follows_of_delimits hdelimits kind)
  induction h with
  | literal h => exact scansBefore_constant h
  | attr h => exact scansBefore_pathKinds h.words
  | @call receiver method args hpath hmethod hargs =>
    intro kinds hkinds _
    have hwords : ∀ word ∈ receiver ++ [method], IsWord word := by
      intro word hword
      rcases List.mem_append.mp hword with hword | hword
      · exact hpath word hword
      · rwa [List.mem_singleton.mp hword]
    have hcall := scans_group (scansBefore_args hargs) hkinds
    rw [Expr.kinds, List.append_assoc]
    exact scansBefore_pathKinds hwords _ hcall (delimits_group _ _)
  | compare op _ _ ihl ihr =>
    exact scansBefore_operator ihl ihr fun kinds => scans_compare op
  | arith op _ _ ihl ihr =>
    exact scansBefore_operator ihl ihr
      (hsign (.arith op) trivial Kind.noConfusion fun _ => Kind.noConfusion)
  | and _ _ ihl ihr =>
    exact scansBefore_operator ihl ihr
      (hsign .and trivial Kind.noConfusion fun _ => Kind.noConfusion)
  | or _ _ ihl ihr =>
    exact scansBefore_operator ihl ihr
      (hsign .or trivial Kind.noConfusion fun _ => Kind.noConfusion)
  | neg _ ih =>
    intro kinds hkinds _
    exact hsign (.arith .sub) trivial Kind.noConfusion (fun _ => Kind.noConfusion) _
      (scans_group ih hkinds) (delimits_group _ _)
  | not _ ih =>
    intro kinds hkinds _
    exact hsign .bang trivial Kind.noConfusion (fun _ => Kind.noConfusion) _
      (scans_group ih hkinds) (delimits_group _ _)

/-! ## Each tree has a text -/

/-- Tokens that have a text. -/
def AreSpelled (kinds : List Kind) : Prop := ∀ kind ∈ kinds, ∃ text, Spelling kind text

theorem AreSpelled.exists_text {kinds : List Kind} (h : AreSpelled kinds) :
    ∃ text, Spells kinds text := by
  induction kinds with
  | nil => exact ⟨[], .nil areBlanks_nil⟩
  | cons kind kinds ih =>
    obtain ⟨text, htext⟩ := h kind List.mem_cons_self
    obtain ⟨rest, hrest⟩ := ih fun other hother => h other (List.mem_cons_of_mem _ hother)
    exact ⟨_, .cons areBlanks_nil htext hrest⟩

theorem AreSpelled.append {kinds others : List Kind} (h : AreSpelled kinds)
    (hothers : AreSpelled others) : AreSpelled (kinds ++ others) := by
  intro kind hkind
  rcases List.mem_append.mp hkind with hkind | hkind
  · exact h kind hkind
  · exact hothers kind hkind

theorem AreSpelled.cons {kind : Kind} {text : List Char} {kinds : List Kind}
    (htext : Spelling kind text) (h : AreSpelled kinds) : AreSpelled (kind :: kinds) := by
  intro other hother
  rcases List.mem_cons.mp hother with rfl | hother
  · exact ⟨text, htext⟩
  · exact h other hother

theorem areSpelled_nil : AreSpelled [] := fun _ hkind => absurd hkind List.not_mem_nil

theorem AreSpelled.group {kinds : List Kind} (h : AreSpelled kinds) :
    AreSpelled (group kinds) := by
  have hopening : Spelling .opening "(".toList := .sign (by simp [signs])
  have hclosing : Spelling .closing ")".toList := .sign (by simp [signs])
  exact .cons hopening (h.append (.cons hclosing areSpelled_nil))

theorem areSpelled_pathKinds (path : List String) : AreSpelled (pathKinds path) := by
  have hdot : Spelling .dot ".".toList := .sign (by simp [signs])
  induction path using pathKinds.induct with
  | case1 => exact areSpelled_nil
  | case2 word => exact .cons (.name word) areSpelled_nil
  | case3 word path hpath ih =>
    rw [pathKinds]
    · exact .cons (.name word) (.cons hdot ih)
    · exact hpath

theorem areSpelled_constant {value : Value} (h : IsConstant value) :
    AreSpelled [constantKind value] := by
  cases h with
  | @int i hint =>
    have hvalue : (Nat.ofDigitChars 10 (Nat.toDigits 10 i.toInt.toNat) 0 : Int) = i.toInt := by
      rw [Nat.ofDigitChars_ten_toDigits]
      exact Int.toNat_of_nonneg hint
    exact .cons (.number Nat.toDigits_ne_nil
      (fun c hc => Nat.isDigit_of_mem_toDigits (by decide) (by decide) hc) hvalue) areSpelled_nil
  | str hstr =>
    obtain ⟨s, hs⟩ := (exists_escapes _).1 hstr
    exact .cons (.str hs) areSpelled_nil

theorem areSpelled_arg {arg : Arg} (h : IsPrintableArg arg) : AreSpelled (argKinds arg) := by
  cases h with
  | literal h => exact areSpelled_constant h
  | attr h => exact areSpelled_pathKinds _

theorem areSpelled_args {args : List Arg} (h : ∀ arg ∈ args, IsPrintableArg arg) :
    AreSpelled (argsKinds args) := by
  have hcomma : Spelling .comma ",".toList := .sign (by simp [signs])
  induction args using argsKinds.induct with
  | case1 => exact areSpelled_nil
  | case2 arg => exact areSpelled_arg (h arg List.mem_cons_self)
  | case3 arg args hargs ih =>
    have hrest := ih fun other hother => h other (List.mem_cons_of_mem _ hother)
    rw [argsKinds]
    · exact (areSpelled_arg (h arg List.mem_cons_self)).append (.cons hcomma hrest)
    · exact hargs

theorem spelling_compare (op : CompareOp) : Spelling (.compare op) op.symbol.toList := by
  by_cases hop : op = .notIn
  · subst hop
    exact .notIn areBlanks_blank (List.cons_ne_nil _ _)
  · refine .sign ?_
    cases op <;> simp [signs, CompareOp.symbol] at hop ⊢

theorem spelling_arith (op : ArithOp) : Spelling (.arith op) op.symbol.toList := by
  refine .sign ?_
  cases op <;> simp [signs, ArithOp.symbol]

theorem areSpelled_kinds {e : Expr} (h : WellFormed e) : AreSpelled e.kinds := by
  have hand : Spelling .and "and".toList := .sign (by simp [signs])
  have hor : Spelling .or "or".toList := .sign (by simp [signs])
  have hbang : Spelling .bang "!".toList := .sign (by simp [signs])
  induction h with
  | literal h => exact areSpelled_constant h
  | attr h => exact areSpelled_pathKinds _
  | call _ _ hargs => exact (areSpelled_pathKinds _).append (areSpelled_args hargs).group
  | compare op _ _ ihl ihr => exact ihl.group.append (.cons (spelling_compare op) ihr.group)
  | arith op _ _ ihl ihr => exact ihl.group.append (.cons (spelling_arith op) ihr.group)
  | neg _ ih => exact .cons (spelling_arith .sub) ih.group
  | not _ ih => exact .cons hbang ih.group
  | and _ _ ihl ihr => exact ihl.group.append (.cons hand ihr.group)
  | or _ _ ihl ihr => exact ihl.group.append (.cons hor ihr.group)

theorem exists_prints {e : Expr} (h : WellFormed e) : ∃ source, e.Prints source := by
  obtain ⟨text, htext⟩ := (areSpelled_kinds h).exists_text
  refine ⟨String.ofList text, ?_⟩
  rwa [Prints, String.toList_ofList]

end Expr

end CorpusQuery
