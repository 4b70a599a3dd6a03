import CorpusQuery.Proofs.Expr.Predictive
import CorpusQuery.Proofs.Expr.RoundTrip

/-!
# Operands in parentheses

Two properties with an operator between them are one expression, whether parentheses stand around
them or not, but for two words: the scanner takes `not` right before `in` as the first half of the
operator `not in`, be it a name of its own or the end of a path. On the left of `in` a property
whose last name is `not` therefore needs its parentheses; without them nothing compiles.
-/

namespace CorpusQuery

open Token Text

namespace Expr

/-! ## Texts of operands -/

/-- The text of a path: its names, with points between them. -/
def pathText (path : List String) : String := ".".intercalate path

/-- A text in so many pairs of parentheses. -/
def inParentheses : Nat → String → String
  | 0, text => text
  | n + 1, text => "(" ++ inParentheses n text ++ ")"

/-- The sign of an operator. -/
def BinaryOp.symbol : BinaryOp → String
  | .compare op => op.symbol
  | .arith op => op.symbol
  | .and => "and"
  | .or => "or"

/-- The text of an operator between two operands, with a blank on each side of it. -/
def BinaryOp.text (o : BinaryOp) (left right : String) : String :=
  left ++ " " ++ o.symbol ++ " " ++ right

/-- Names with a point after each of them. -/
def qualifierText (words : List String) : List Char :=
  words.flatMap fun word => word.toList ++ ['.']

/-- The tokens of names with a point after each of them. -/
def qualifierKinds (words : List String) : List Kind :=
  words.flatMap fun word => [.name word, .dot]

/-- Tokens in so many pairs of parentheses. -/
def groups : Nat → List Kind → List Kind
  | 0, kinds => kinds
  | n + 1, kinds => group (groups n kinds)

theorem pathText_concat (words : List String) (last : String) :
    (pathText (words ++ [last])).toList = qualifierText words ++ last.toList := by
  rw [pathText, String.toList_intercalate]
  induction words with
  | nil => simp [qualifierText]
  | cons word words ih =>
    have hne : (words ++ [last]).map String.toList ≠ [] := by simp
    rw [List.cons_append, List.map_cons, List.intercalate_cons_of_ne_nil hne, ih]
    simp [qualifierText]

theorem pathKinds_concat (words : List String) (last : String) :
    pathKinds (words ++ [last]) = qualifierKinds words ++ [.name last] := by
  induction words with
  | nil => rfl
  | cons word words ih =>
    rw [List.cons_append, pathKinds, ih]
    · rfl
    · exact List.concat_ne_nil _ _

theorem IsPropertyPath.exists_concat {path : List String} (h : IsPropertyPath path) :
    ∃ words last, path = words ++ [last] ∧ (∀ word ∈ words, IsWord word) ∧ IsWord last := by
  obtain rfl | ⟨words, last, rfl⟩ := List.eq_nil_or_concat path
  · exact absurd rfl h.nonempty
  · exact ⟨words, last, List.concat_eq_append, fun word hword => h.words word (by simp [hword]),
      h.words last (by simp)⟩

/-! ## Tokens of operands -/

section Reads

variable {path : List String} {kinds : List Kind} {rest : List Char}

/-- Names before a point are read as names, also `not`. -/
theorem reads_qualifier {words : List String} (hwords : ∀ word ∈ words, IsWord word)
    (h : Reads rest kinds) :
    Reads (qualifierText words ++ rest) (qualifierKinds words ++ kinds) := by
  induction words with
  | nil => exact h
  | cons word words ih =>
    have hrest := ih fun other hother => hwords other (List.mem_cons_of_mem _ hother)
    have hpoint : Spelling .dot ".".toList := .sign (by simp [signs])
    have hdot := hrest.cons areBlanks_nil hpoint trivial Kind.noConfusion trivial Kind.noConfusion
    have hends : Ends (.name word) ([] ++ ".".toList ++ (qualifierText words ++ rest)) := by
      rintro c ⟨⟩
      decide
    have hname := hdot.cons areBlanks_nil (.name word) (hwords word List.mem_cons_self)
      Kind.noConfusion hends fun _ => by simp
    simpa [qualifierText, qualifierKinds] using hname

theorem reads_path (hpath : IsPropertyPath path) (h : Reads rest kinds) (hrest : Breaks rest)
    (hnext : path.getLast? = some "not" → kinds.head? ≠ some (.compare .isIn)) :
    Reads ((pathText path).toList ++ rest) (pathKinds path ++ kinds) := by
  obtain ⟨words, last, rfl, hwords, hlast⟩ := hpath.exists_concat
  have hname := h.cons areBlanks_nil (.name last) hlast Kind.noConfusion (hrest.ends _)
    fun heq => hnext (by cases heq; simp)
  rw [pathText_concat, pathKinds_concat, List.append_assoc, List.append_assoc]
  exact reads_qualifier hwords hname

theorem reads_inParentheses (hpath : IsPropertyPath path) (n : Nat) (h : Reads rest kinds)
    (hrest : Breaks rest)
    (hnext : n = 0 → path.getLast? = some "not" → kinds.head? ≠ some (.compare .isIn)) :
    Reads ((inParentheses n (pathText path)).toList ++ rest)
      (groups n (pathKinds path) ++ kinds) := by
  induction n generalizing rest kinds with
  | zero => exact reads_path hpath h hrest (hnext rfl)
  | succ n ih =>
    have hopen : Spelling .opening "(".toList := .sign (by simp [signs])
    have hclose : Spelling .closing ")".toList := .sign (by simp [signs])
    have hclosing := h.cons areBlanks_nil hclose trivial Kind.noConfusion trivial Kind.noConfusion
    have hinner := ih hclosing (breaks_closing rest) fun _ _ => by simp
    have hopening :=
      hinner.cons areBlanks_nil hopen trivial Kind.noConfusion trivial Kind.noConfusion
    simpa [inParentheses, groups, group] using hopening

theorem BinaryOp.spelling (o : BinaryOp) : Spelling o.kind o.symbol.toList := by
  cases o with
  | compare op => exact spelling_compare op
  | arith op => exact spelling_arith op
  | and => exact .sign (by simp [BinaryOp.kind, BinaryOp.symbol, signs])
  | or => exact .sign (by simp [BinaryOp.kind, BinaryOp.symbol, signs])

theorem BinaryOp.reads (o : BinaryOp) (h : Reads rest kinds) (hrest : Breaks rest) :
    Reads (' ' :: o.symbol.toList ++ rest) (o.kind :: kinds) := by
  have hname : ∀ word, o.kind ≠ .name word := by
    intro word
    cases o <;> exact Kind.noConfusion
  have hproper : o.kind.IsProper := by
    cases o <;> trivial
  exact h.cons_sign areBlanks_blank o.spelling hproper hname hrest.ends

end Reads

theorem derives_groups {path : List String} (h : IsPropertyPath path) (n : Nat) :
    Derives .factor (groups n (pathKinds path)) (.attr path) := by
  induction n with
  | zero => exact .attr (isPath_pathKinds h.nonempty)
  | succ n ih => exact .group ih.ofFactor.ofSum.ofNegation

/-! ## Compiling operands -/

theorem compile_inParentheses {p q : List String} (hp : IsPropertyPath p) (hq : IsPropertyPath q)
    (o : BinaryOp) (m n : Nat)
    (hnot : m = 0 → o = .compare .isIn → p.getLast? ≠ some "not") :
    compile (o.text (inParentheses m (pathText p)) (inParentheses n (pathText q))) =
      .ok (o.join (.attr p) (.attr q)) := by
  have hright := reads_inParentheses hq n reads_nil breaks_nil fun _ _ => by simp
  have hoperator := o.reads (hright.after_blanks areBlanks_blank) (breaks_blank _)
  have hnext : m = 0 → p.getLast? = some "not" → o.kind ≠ .compare .isIn := by
    intro hm hlast hin
    refine hnot hm ?_ hlast
    cases o <;> cases hin
    rfl
  have hleft := reads_inParentheses hp m hoperator (breaks_blank _) fun hm hlast hin =>
    hnext hm hlast (Option.some.inj hin)
  refine (compile_iff_of_reads ?_).mpr (o.derives (derives_groups hp m) (derives_groups hq n))
  simpa [BinaryOp.text] using hleft

/-- The parentheses around two properties do not matter: the expression is that of the operator and
the two. Only a name `not` right before `in` is no name without them. -/
theorem parentheses_keep_tree {p q : List String} (hp : IsPropertyPath p) (hq : IsPropertyPath q)
    (o : BinaryOp) :
    (∀ m n, 0 < m → compile (o.text (inParentheses m (pathText p)) (inParentheses n (pathText q))) =
      .ok (o.join (.attr p) (.attr q))) ∧
    ((o = .compare .isIn → p.getLast? ≠ some "not") →
      compile (o.text (pathText p) (pathText q)) = .ok (o.join (.attr p) (.attr q)) ∧
      ∀ m n, compile (o.text (inParentheses m (pathText p)) (inParentheses n (pathText q))) =
        compile (o.text (pathText p) (pathText q))) := by
  refine ⟨fun m n hm => compile_inParentheses hp hq o m n fun hzero => absurd hzero hm.ne', ?_⟩
  intro hnot
  have hplain := compile_inParentheses hp hq o 0 0 fun _ => hnot
  refine ⟨hplain, fun m n => ?_⟩
  exact (compile_inParentheses hp hq o m n fun _ => hnot).trans hplain.symm

/-- As the first name of a path, or on the right, `not` is a name like any other. -/
theorem parentheses_keep_tree_of_qualifier :
    IsPropertyPath ["not", "key"] ∧ IsPropertyPath ["not"] ∧
      ["not", "key"].getLast? ≠ some "not" ∧
      compile "(not.key) in (not)" =
        .ok (.compare .isIn (.attr ["not", "key"]) (.attr ["not"])) ∧
      compile "(not.key) in (not)" = compile "not.key in not" := by
  have hpath : IsPropertyPath ["not", "key"] := by decide
  have hother : IsPropertyPath ["not"] := by decide
  have hlast : ["not", "key"].getLast? ≠ some "not" := by decide
  obtain ⟨hgrouped, hplain⟩ := parentheses_keep_tree hpath hother (.compare .isIn)
  exact ⟨hpath, hother, hlast, hgrouped 1 1 Nat.one_pos, (hplain fun _ => hlast).2 1 1⟩

/-! ## The word before `in` -/

section Refusal

variable {words : List String} {op : CompareOp} {kinds : List Kind}

/-- Tokens, as if each stood at the start of the text. -/
def atStart (kinds : List Kind) : List Token := kinds.map fun kind => ⟨kind, 0⟩

/-- A path does not end in a point, nor does it go on with an operator. -/
theorem readPath_qualifier (names : List String) :
    readPath names (atStart (.dot :: (qualifierKinds words ++ .compare op :: kinds))) =
      .error ⟨some 0, .notName (.compare op)⟩ := by
  induction words generalizing names with
  | nil => rfl
  | cons word words ih => exact ih (word :: names)

theorem factor_qualifier (bound : Nat) :
    ∃ stop, factor bound (atStart (qualifierKinds words ++ .compare op :: kinds)) =
      .error stop := by
  cases bound with
  | zero => exact ⟨_, rfl⟩
  | succ bound =>
    cases words with
    | nil => exact ⟨_, rfl⟩
    | cons word words =>
      have hpath :
          readPath [word] (atStart (.dot :: (qualifierKinds words ++ .compare op :: kinds))) =
            .error ⟨some 0, .notName (.compare op)⟩ := readPath_qualifier [word]
      exact ⟨_, reference_of_error hpath⟩

/-- No expression starts with an operator of comparisons or with names, points and such an
operator. -/
theorem not_derives_qualifier (e : Expr) :
    ¬Derives .expression (qualifierKinds words ++ .compare op :: kinds) e := by
  intro h
  generalize htokens : atStart (qualifierKinds words ++ .compare op :: kinds) = tokens
  have hkinds : tokens.map Token.kind = qualifierKinds words ++ .compare op :: kinds := by
    rw [← htokens, atStart, List.map_map]
    exact List.map_id _
  have hne : tokens ≠ [] := by
    rintro rfl
    simp at hkinds
  have hbang : ∀ token ∈ tokens.head?, token.kind ≠ .bang := by
    rw [← htokens]
    cases words <;> rintro token ⟨⟩ <;> exact Kind.noConfusion
  obtain ⟨stop, hfactor⟩ : ∃ stop, factor tokens.length tokens = .error stop := by
    rw [← htokens]
    exact factor_qualifier _
  have hcomparison : comparison (factor tokens.length) tokens = .error stop := by
    refine comparison_of_error ?_
    rw [chain, chain, hfactor]
  have hread := ofTokens_of_derives (hkinds ▸ h)
  rw [ofTokens, expression, chain, chain, negation_of_ne_bang hbang, hcomparison] at hread
  · cases hread
  · exact hne

end Refusal

/-- On the left of `in`, a property whose last name is `not` needs its parentheses. -/
theorem compile_not_in {p q : List String} (hp : IsPropertyPath p) (hq : IsPropertyPath q)
    (hnot : p.getLast? = some "not") (e : Expr) :
    compile ((BinaryOp.compare .isIn).text (pathText p) (pathText q)) ≠ .ok e := by
  obtain ⟨words, last, rfl, hwords, -⟩ := hp.exists_concat
  obtain rfl : last = "not" := by simpa using hnot
  have hright := reads_path hq reads_nil breaks_nil fun _ => by simp
  have hnotIn := (hright.after_blanks areBlanks_blank).cons_notIn areBlanks_nil areBlanks_blank
    (List.cons_ne_nil _ _) ((breaks_blank _).ends _)
  have hreads : Reads ((BinaryOp.compare .isIn).text (pathText (words ++ ["not"]))
      (pathText q)).toList (qualifierKinds words ++ .compare .notIn :: (pathKinds q ++ [])) := by
    simpa [BinaryOp.text, BinaryOp.symbol, CompareOp.symbol, pathText_concat] using
      reads_qualifier hwords hnotIn
  exact mt (compile_iff_of_reads hreads).mp (not_derives_qualifier e)

/-- Parentheses around the operands make an expression of `not in tags`. -/
theorem not_forall_parentheses_keep_tree :
    ¬∀ (p q : List String) (o : BinaryOp), IsPropertyPath p → IsPropertyPath q →
      ∀ e, compile (o.text (pathText p) (pathText q)) = .ok e ↔
        compile (o.text (inParentheses 1 (pathText p)) (inParentheses 1 (pathText q))) = .ok e := by
  intro hsame
  have hnot : IsPropertyPath ["not"] := by decide
  have htags : IsPropertyPath ["tags"] := by decide
  have hgrouped := compile_inParentheses hnot htags (.compare .isIn) 1 1 fun hone => by cases hone
  have hplain := (hsame ["not"] ["tags"] (.compare .isIn) hnot htags _).mpr hgrouped
  exact compile_not_in hnot htags rfl _ hplain

end Expr

end CorpusQuery
