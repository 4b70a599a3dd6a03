import CorpusQuery.Proofs.Expr.Grammar

/-!
# Soundness of the parser

What a reader takes from the start of the tokens derives from its rule, and the expression it gives
is the tree of the derivation.
-/

namespace CorpusQuery.Expr

open Token (Kind)

/-- What the reader takes from the start of the tokens derives from the rule. -/
def Sound (rule : Rule) (reader : Reader) : Prop :=
  ∀ (tokens : List Token) (e : Expr) (rest : List Token), reader tokens = .ok (e, rest) →
    ∃ ts, tokens = ts ++ rest ∧ Derives rule (ts.map Token.kind) e

theorem readPath_sound {names path : List String} {tokens rest : List Token}
    (h : readPath names tokens = .ok (path, rest)) :
    ∃ ts more, tokens = ts ++ rest ∧ path = names.reverse ++ more ∧
      ∀ word, IsPath (.name word :: ts.map Token.kind) (word :: more) := by
  induction names, tokens using readPath.induct with
  | case1 names _ name _ rest' ih =>
    rw [readPath] at h
    obtain ⟨ts, more, rfl, rfl, hpath⟩ := ih h
    refine ⟨⟨.dot, _⟩ :: ⟨.name name, _⟩ :: ts, name :: more, rfl, ?_, fun word => ?_⟩
    · rw [List.reverse_cons, List.append_assoc, List.singleton_append]
    · exact .dot word (hpath name)
  | case2 names _ found rest' hfound =>
    rw [readPath] at h
    · cases h
    · exact hfound
  | case3 names position =>
    rw [readPath] at h
    cases h
  | case4 names tokens _ _ _ =>
    rw [readPath] at h
    · cases h
      exact ⟨[], [], rfl, (List.append_nil _).symm, fun word => .name word⟩
    all_goals assumption

theorem readArgument_sound {tokens rest : List Token} {arg : Arg}
    (h : readArgument tokens = .ok (arg, rest)) :
    ∃ ts, tokens = ts ++ rest ∧ IsArgument (ts.map Token.kind) arg := by
  unfold readArgument at h
  split at h
  · cases h
  · cases h
    exact ⟨[_], rfl, .number _⟩
  · cases h
    exact ⟨[_], rfl, .str _⟩
  · next first position tokens =>
    cases hread : readPath [first] tokens with
    | error stop =>
      rw [hread] at h
      cases h
    | ok result =>
      obtain ⟨path, after⟩ := result
      rw [hread] at h
      cases h
      obtain ⟨ts, more, rfl, rfl, hpath⟩ := readPath_sound hread
      exact ⟨⟨.name first, position⟩ :: ts, rfl, .path (hpath first)⟩
  · cases h

theorem close_sound {tokens rest : List Token} (h : close tokens = .ok rest) :
    ∃ position, tokens = ⟨.closing, position⟩ :: rest := by
  unfold close at h
  split at h
  · cases h
    exact ⟨_, rfl⟩
  · cases h
  · cases h

theorem readArguments_sound {bound : Nat} {tokens rest : List Token} {args : List Arg}
    (h : readArguments bound tokens = .ok (args, rest)) :
    ∃ ts position, tokens = ts ++ ⟨.closing, position⟩ :: rest ∧
      IsArguments (ts.map Token.kind) args := by
  induction bound generalizing tokens args with
  | zero => cases h
  | succ bound ih =>
    rw [readArguments] at h
    split at h
    · cases h
    · next arg position after hread =>
      obtain ⟨ts, rfl, harg⟩ := readArgument_sound hread
      split at h
      · next args' rest' hmore =>
        cases h
        obtain ⟨us, last, rfl, hargs⟩ := ih hmore
        refine ⟨ts ++ ⟨.comma, position⟩ :: us, last, ?_, ?_⟩
        · rw [List.append_assoc, List.cons_append]
        · rw [List.map_append, List.map_cons]
          exact .more harg hargs
      · cases h
    · next arg after _ hread =>
      obtain ⟨ts, rfl, harg⟩ := readArgument_sound hread
      cases hclose : close after with
      | error stop =>
        rw [hclose] at h
        cases h
      | ok rest' =>
        rw [hclose] at h
        cases h
        obtain ⟨position, rfl⟩ := close_sound hclose
        exact ⟨ts, position, rfl, .last harg⟩

theorem path_eq_receiver_method {path : List String} (h : path ≠ []) :
    path.dropLast ++ [path.getLastD ""] = path := by
  rw [List.getLastD_eq_getLast?, List.getLast?_eq_some_getLast h, Option.getD_some]
  exact List.dropLast_concat_getLast h

theorem readCall_sound {us : List Token} {path : List String} {opening : Nat}
    {tokens rest : List Token} {e : Expr} (hpath : IsPath (us.map Token.kind) path)
    (h : readCall path tokens = .ok (e, rest)) :
    ∃ ts, tokens = ts ++ rest ∧
      Derives .factor ((us ++ ⟨.opening, opening⟩ :: ts).map Token.kind) e := by
  have hcallee := path_eq_receiver_method hpath.ne_nil
  unfold readCall at h
  split at h
  · next position tokens =>
    cases h
    refine ⟨[⟨.closing, position⟩], rfl, ?_⟩
    rw [List.map_append]
    exact .callEmpty (hcallee.symm ▸ hpath)
  · cases hargs : readArguments tokens.length tokens with
    | error stop =>
      rw [hargs] at h
      cases h
    | ok result =>
      obtain ⟨args, rest'⟩ := result
      rw [hargs] at h
      cases h
      obtain ⟨ts, position, rfl, hts⟩ := readArguments_sound hargs
      refine ⟨ts ++ [⟨.closing, position⟩], by rw [List.append_assoc, List.singleton_append], ?_⟩
      rw [List.map_append, List.map_cons, List.map_append]
      exact .call (hcallee.symm ▸ hpath) hts

section Chain

variable {rule : Rule} {operand : Reader}

theorem readChain_sound (hchain : rule.IsChain) (hoperand : Sound rule.operand operand)
    {bound : Nat} {ts : List Kind} {left e : Expr} {tokens rest : List Token}
    (hleft : Derives rule ts left)
    (h : readChain operand rule.op bound left tokens = .ok (e, rest)) :
    ∃ us, tokens = us ++ rest ∧ Derives rule (ts ++ us.map Token.kind) e := by
  induction bound generalizing ts left tokens with
  | zero =>
    cases tokens <;> cases h <;> exact ⟨[], rfl, by rwa [List.map_nil, List.append_nil]⟩
  | succ bound ih =>
    cases tokens with
    | nil =>
      cases h
      exact ⟨[], rfl, by rwa [List.map_nil, List.append_nil]⟩
    | cons token tokens =>
      rw [readChain] at h
      cases hop : rule.op token.kind with
      | none =>
        rw [hop] at h
        cases h
        exact ⟨[], rfl, by rwa [List.map_nil, List.append_nil]⟩
      | some build =>
        rw [hop] at h
        cases hread : operand tokens with
        | error stop =>
          rw [hread] at h
          cases h
        | ok result =>
          obtain ⟨right, after⟩ := result
          rw [hread] at h
          obtain ⟨us, rfl, hright⟩ := hoperand _ _ _ hread
          obtain ⟨vs, rfl, he⟩ := ih (hchain.join hop hleft hright) h
          refine ⟨token :: (us ++ vs), by rw [List.cons_append, List.append_assoc], ?_⟩
          rwa [List.map_cons, List.map_append, ← List.cons_append, ← List.append_assoc]

theorem chain_sound (hchain : rule.IsChain) (hoperand : Sound rule.operand operand) :
    Sound rule (chain operand rule.op) := by
  intro tokens e rest h
  unfold chain at h
  cases hread : operand tokens with
  | error stop =>
    rw [hread] at h
    cases h
  | ok result =>
    obtain ⟨left, after⟩ := result
    rw [hread] at h
    obtain ⟨ts, rfl, hleft⟩ := hoperand _ _ _ hread
    obtain ⟨us, rfl, he⟩ := readChain_sound hchain hoperand (hchain.base hleft) h
    exact ⟨ts ++ us, by rw [List.append_assoc], by rwa [List.map_append]⟩

end Chain

section Rules

variable {factor : Reader}

theorem sum_sound (h : Sound .factor factor) : Sound .sum (chain (chain factor productOp) sumOp) :=
  chain_sound isChain_sum (chain_sound isChain_product h)

theorem comparison_sound (hfactor : Sound .factor factor) :
    Sound .comparison (comparison factor) := by
  intro tokens e rest h
  have hsum := sum_sound hfactor
  unfold comparison at h
  dsimp only at h
  split at h
  · next left op position after hleft =>
    obtain ⟨ts, rfl, hl⟩ := hsum _ _ _ hleft
    split at h
    · next right rest' hright =>
      cases h
      obtain ⟨us, rfl, hr⟩ := hsum _ _ _ hright
      refine ⟨ts ++ ⟨.compare op, position⟩ :: us, by rw [List.append_assoc, List.cons_append], ?_⟩
      rw [List.map_append, List.map_cons]
      exact .compare op hl hr
    · cases h
  · obtain ⟨ts, rfl, he⟩ := hsum _ _ _ h
    exact ⟨ts, rfl, .comparison he⟩

theorem negation_sound (hfactor : Sound .factor factor) : Sound .negation (negation factor) := by
  intro tokens
  induction tokens with
  | nil =>
    intro e rest h
    obtain ⟨ts, heq, he⟩ := comparison_sound hfactor [] e rest h
    exact ⟨ts, heq, .negation he⟩
  | cons token tokens ih =>
    intro e rest h
    unfold negation at h
    split at h
    · next position after heq =>
      cases heq
      cases hread : negation factor tokens with
      | error stop =>
        rw [hread] at h
        cases h
      | ok result =>
        obtain ⟨inner, rest'⟩ := result
        rw [hread] at h
        cases h
        obtain ⟨ts, rfl, he⟩ := ih _ _ hread
        exact ⟨⟨.bang, position⟩ :: ts, rfl, .not he⟩
    · obtain ⟨ts, heq, he⟩ := comparison_sound hfactor _ _ _ h
      exact ⟨ts, heq, .negation he⟩

theorem expression_sound (hfactor : Sound .factor factor) :
    Sound .expression (expression factor) :=
  chain_sound isChain_expression (chain_sound isChain_conjunction (negation_sound hfactor))

end Rules

theorem factor_sound (bound : Nat) : Sound .factor (factor bound) := by
  induction bound with
  | zero =>
    intro tokens e rest h
    unfold factor at h
    cases h
  | succ bound ih =>
    intro tokens e rest h
    unfold factor at h
    split at h
    · next position after heq =>
      cases heq
      cases hread : factor bound after with
      | error stop =>
        rw [hread] at h
        cases h
      | ok result =>
        obtain ⟨inner, rest'⟩ := result
        rw [hread] at h
        cases h
        obtain ⟨ts, rfl, he⟩ := ih _ _ _ hread
        exact ⟨⟨.arith .sub, position⟩ :: ts, rfl, .neg he⟩
    · next position after heq =>
      cases heq
      cases hread : expression (factor bound) after with
      | error stop =>
        rw [hread] at h
        cases h
      | ok result =>
        obtain ⟨inner, rest'⟩ := result
        rw [hread] at h
        cases hclose : close rest' with
        | error stop =>
          simp only [hclose, Except.map, reduceCtorEq] at h
        | ok rest'' =>
          simp only [hclose, Except.map, Except.ok.injEq, Prod.mk.injEq] at h
          obtain ⟨rfl, rfl⟩ := h
          obtain ⟨ts, rfl, he⟩ := expression_sound ih _ _ _ hread
          obtain ⟨last, rfl⟩ := close_sound hclose
          refine ⟨⟨.opening, position⟩ :: (ts ++ [⟨.closing, last⟩]), ?_, ?_⟩
          · rw [List.cons_append, List.append_assoc, List.singleton_append]
          · rw [List.map_cons, List.map_append]
            exact .group he
    · next value position after _ =>
      cases h
      exact ⟨[⟨.number value, position⟩], rfl, .number value⟩
    · next s position after _ =>
      cases h
      exact ⟨[⟨.str s, position⟩], rfl, .str s⟩
    · next first position after _ =>
      split at h
      · next path opening after' hpath =>
        obtain ⟨ts, more, rfl, rfl, hts⟩ := readPath_sound hpath
        obtain ⟨us, rfl, he⟩ :=
          @readCall_sound (⟨.name first, position⟩ :: ts) _ opening _ _ _ (hts first) h
        exact ⟨⟨.name first, position⟩ :: (ts ++ ⟨.opening, opening⟩ :: us), by
          rw [List.cons_append, List.append_assoc, List.cons_append], he⟩
      · next path after' _ hpath =>
        cases h
        obtain ⟨ts, more, rfl, rfl, hts⟩ := readPath_sound hpath
        exact ⟨⟨.name first, position⟩ :: ts, rfl, .attr (hts first)⟩
      · cases h
    · cases h
    · cases h

end CorpusQuery.Expr
