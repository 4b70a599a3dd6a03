import CorpusQuery.Proofs.Expr.Completeness

/-!
# The parser and the grammar

The parser accepts the lists of tokens that derive from the grammar, and gives the tree of the
derivation, of which there is one. The bound on the depth of its recursion is never what ends it: on
lists of at most `n` tokens every bound from `n` on gives the same.
-/

namespace CorpusQuery.Expr

open Token (Kind)

/-! ## The bound of the recursion -/

/-- Two readers that give the same on lists of at most `n` tokens. -/
def AgreeUpTo (n : Nat) (reader other : Reader) : Prop :=
  ∀ tokens : List Token, tokens.length ≤ n → reader tokens = other tokens

section Agree

variable {n : Nat} {rule : Rule} {operand other : Reader}
  {op : Kind → Option (Expr → Expr → Expr)}

theorem readChain_agree (h : AgreeUpTo n operand other) (hsound : Sound rule operand)
    {bound : Nat} {left : Expr} {tokens : List Token} (hlength : tokens.length ≤ n) :
    readChain operand op bound left tokens = readChain other op bound left tokens := by
  induction bound generalizing left tokens with
  | zero => cases tokens <;> rfl
  | succ bound ih =>
    cases tokens with
    | nil => rfl
    | cons token tokens =>
      have htail : tokens.length ≤ n := Nat.le_of_succ_le hlength
      rw [readChain, readChain, ← h tokens htail]
      cases op token.kind with
      | none => rfl
      | some build =>
        dsimp only
        cases hread : operand tokens with
        | error stop => rfl
        | ok result =>
          obtain ⟨right, rest⟩ := result
          exact ih (Nat.le_trans (hsound.length_le hread) htail)

theorem chain_agree (h : AgreeUpTo n operand other) (hsound : Sound rule operand) :
    AgreeUpTo n (chain operand op) (chain other op) := by
  intro tokens hlength
  rw [chain, chain, ← h tokens hlength]
  cases hread : operand tokens with
  | error stop => rfl
  | ok result =>
    obtain ⟨left, rest⟩ := result
    exact readChain_agree h hsound (Nat.le_trans (hsound.length_le hread) hlength)

end Agree

section Factor

variable {n : Nat} {factor other : Reader}

theorem sum_agree (h : AgreeUpTo n factor other) (hsound : Sound .factor factor) :
    AgreeUpTo n (chain (chain factor productOp) sumOp) (chain (chain other productOp) sumOp) :=
  chain_agree (chain_agree h hsound) (chain_sound isChain_product hsound)

theorem comparison_agree (h : AgreeUpTo n factor other) (hsound : Sound .factor factor) :
    AgreeUpTo n (comparison factor) (comparison other) := by
  intro tokens hlength
  have hsum := sum_agree h hsound
  unfold comparison
  dsimp only
  rw [← hsum tokens hlength]
  split
  · next left op position rest hread =>
    have hrest := (sum_sound hsound).length_le hread
    rw [List.length_cons] at hrest
    rw [← hsum rest (by omega)]
  · rfl

theorem negation_agree (h : AgreeUpTo n factor other) (hsound : Sound .factor factor) :
    AgreeUpTo n (negation factor) (negation other) := by
  intro tokens
  induction tokens with
  | nil => exact fun hlength => comparison_agree h hsound [] hlength
  | cons token tokens ih =>
    intro hlength
    have htail := ih (Nat.le_of_succ_le hlength)
    have hcomparison := comparison_agree h hsound (token :: tokens) hlength
    obtain ⟨kind, position⟩ := token
    cases kind with
    | bang => rw [negation, negation, htail]
    | _ =>
      unfold negation
      exact hcomparison

theorem expression_agree (h : AgreeUpTo n factor other) (hsound : Sound .factor factor) :
    AgreeUpTo n (expression factor) (expression other) := by
  have hnegation := negation_sound hsound
  exact chain_agree (chain_agree (negation_agree h hsound) hnegation)
    (chain_sound isChain_conjunction hnegation)

end Factor

theorem factor_agree_succ (bound : Nat) : AgreeUpTo bound (factor bound) (factor (bound + 1)) := by
  induction bound with
  | zero =>
    intro tokens hlength
    rw [List.length_eq_zero_iff.mp (Nat.le_zero.mp hlength)]
    rfl
  | succ bound ih =>
    intro tokens hlength
    cases tokens with
    | nil => rfl
    | cons token tokens =>
      have htail : tokens.length ≤ bound := Nat.le_of_succ_le_succ hlength
      have hexpression := expression_agree ih (factor_sound bound) tokens htail
      obtain ⟨kind, position⟩ := token
      cases kind with
      | arith op =>
        cases op with
        | sub => rw [factor, factor, ih tokens htail]
        | _ => rfl
      | opening => rw [factor, factor, hexpression]
      | _ => rfl

theorem factor_agree {n bound : Nat} (h : n ≤ bound) : AgreeUpTo n (factor n) (factor bound) := by
  induction h with
  | refl => exact fun _ _ => rfl
  | @step bound hn ih =>
    intro tokens hlength
    rw [ih tokens hlength]
    exact factor_agree_succ bound tokens (Nat.le_trans hlength hn)

/-! ## Whole lists of tokens -/

theorem derives_of_ofTokens {tokens : List Token} {e : Expr} (h : ofTokens tokens = .ok e) :
    Derives .expression (tokens.map Token.kind) e := by
  cases tokens with
  | nil => cases h
  | cons token tokens =>
    rw [ofTokens] at h
    · split at h
      · next hread =>
        cases h
        obtain ⟨ts, heq, he⟩ := expression_sound (factor_sound _) _ _ _ hread
        rwa [heq, List.append_nil]
      · cases h
      · cases h
    · exact List.cons_ne_nil _ _

theorem ofTokens_of_derives {tokens : List Token} {e : Expr}
    (h : Derives .expression (tokens.map Token.kind) e) : ofTokens tokens = .ok e := by
  have hlength : (tokens ++ []).length ≤ tokens.length :=
    Nat.le_of_eq (by rw [List.append_nil])
  have hread := (reaches_of_derives h).read rfl hlength (stops_nil .expression)
  rw [List.append_nil] at hread
  change expression (factor tokens.length) tokens = _ at hread
  cases tokens with
  | nil =>
    obtain ⟨kind, rest, heq, -⟩ := h.starts
    cases heq
  | cons token tokens =>
    rw [ofTokens]
    · rw [hread]
    · exact List.cons_ne_nil _ _

/-- The tree of a derivation is the only one for its tokens. -/
theorem derives_unique {kinds : List Kind} {e e' : Expr} (h : Derives .expression kinds e)
    (h' : Derives .expression kinds e') : e = e' := by
  let tokens : List Token := kinds.map fun kind => ⟨kind, 0⟩
  have hkinds : tokens.map Token.kind = kinds := by
    rw [List.map_map]
    exact List.map_id kinds
  rw [← hkinds] at h h'
  have heq := (ofTokens_of_derives h).symm.trans (ofTokens_of_derives h')
  exact Except.ok.inj heq

/-- The parser accepts exactly what derives from the grammar, with the tree of the derivation, which
is unique; and no bound on its recursion that covers the tokens changes the answer. -/
theorem ofTokens_recognizes (tokens : List Token) :
    (∀ e, ofTokens tokens = .ok e ↔ Derives .expression (tokens.map Token.kind) e) ∧
      (∀ e e', Derives .expression (tokens.map Token.kind) e →
        Derives .expression (tokens.map Token.kind) e' → e = e') ∧
      ∀ bound, tokens.length ≤ bound →
        expression (factor bound) tokens = expression (factor tokens.length) tokens := by
  refine ⟨fun e => ⟨derives_of_ofTokens, ofTokens_of_derives⟩,
    fun e e' h h' => derives_unique h h', fun bound hbound => ?_⟩
  have hagree := expression_agree (factor_agree hbound) (factor_sound _)
  exact (hagree tokens (Nat.le_refl _)).symm

/-- A text is an expression if its tokens derive from the grammar. -/
theorem compile_eq_ok_iff {source : String} {e : Expr} :
    compile source = .ok e ↔
      ∃ tokens, tokenize source = .ok tokens ∧ Derives .expression (tokens.map Token.kind) e := by
  unfold compile
  cases tokenize source with
  | error problem =>
    constructor
    · intro h
      cases h
    · rintro ⟨tokens, htokens, -⟩
      cases htokens
  | ok tokens =>
    dsimp only
    constructor
    · intro h
      split at h
      · next hread =>
        cases h
        exact ⟨tokens, rfl, derives_of_ofTokens hread⟩
      · cases h
    · rintro ⟨others, hothers, hderives⟩
      cases hothers
      rw [ofTokens_of_derives hderives]

end CorpusQuery.Expr
