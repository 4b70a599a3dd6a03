import CorpusQuery.Proofs.Expr.Lookahead

/-!
# The readers of the rules

The readers of all rules are predictive: of the chains of operands, of comparisons and negations,
and of factors. A chain fails in an operand after some operands that it has joined, and these are
the beginning of a longer chain.
-/

namespace CorpusQuery.Expr

open Token (Kind)

/-! ## Chains of operands -/

section Chain

variable {rule : Rule} {operand : Reader} {n : Nat}

/-- A chain ends in front of what is none of its operators. -/
theorem readChain_of_none {op : Kind → Option (Expr → Expr → Expr)} {bound : Nat} {left : Expr}
    {tokens : List Token} (h : ∀ token ∈ tokens.head?, op token.kind = none) :
    readChain operand op bound left tokens = .ok (left, tokens) := by
  cases bound with
  | zero => cases tokens <;> rfl
  | succ bound =>
    cases tokens with
    | nil => rfl
    | cons token tokens => rw [readChain, h token rfl]

theorem readChain_takes (h : Predictive n (Derives rule.operand) operand) {bound : Nat}
    {left e : Expr} {tokens rest : List Token} (hlength : tokens.length ≤ n)
    (hbound : tokens.length ≤ bound)
    (hread : readChain operand rule.op bound left tokens = .ok (e, rest)) :
    ∃ ts, tokens = ts ++ rest ∧ ∀ others other, others.head? = rest.head? →
      (ts ++ others).length ≤ other →
        readChain operand rule.op other left (ts ++ others) = .ok (e, others) := by
  induction bound generalizing left tokens with
  | zero =>
    obtain rfl := List.length_eq_zero_iff.mp (Nat.le_zero.mp hbound)
    cases hread
    refine ⟨[], rfl, fun others other hnext _ => ?_⟩
    rw [List.head?_eq_none_iff.mp hnext]
    exact readChain_of_none nofun
  | succ bound ih =>
    cases tokens with
    | nil =>
      cases hread
      refine ⟨[], rfl, fun others other hnext _ => ?_⟩
      rw [List.head?_eq_none_iff.mp hnext]
      exact readChain_of_none nofun
    | cons token tokens =>
      rw [readChain] at hread
      cases hop : rule.op token.kind with
      | none =>
        rw [hop] at hread
        cases hread
        refine ⟨[], rfl, fun others other hnext _ => readChain_of_none ?_⟩
        rw [List.nil_append, hnext]
        rintro _ ⟨⟩
        exact hop
      | some build =>
        rw [hop] at hread
        cases hoperand : operand tokens with
        | error stop =>
          rw [hoperand] at hread
          cases hread
        | ok result =>
          obtain ⟨right, after⟩ := result
          rw [hoperand] at hread
          obtain ⟨us, rfl, htakes⟩ := h.takes (Nat.le_of_succ_le hlength) hoperand
          rw [List.length_cons, List.length_append] at hlength hbound
          obtain ⟨vs, rfl, hmore⟩ := ih (by omega) (by omega) hread
          refine ⟨token :: (us ++ vs), by rw [List.cons_append, List.append_assoc], ?_⟩
          intro others other hnext hother
          rw [List.cons_append, List.append_assoc] at hother ⊢
          rw [List.length_cons, List.length_append] at hother
          cases other with
          | zero => omega
          | succ other =>
            rw [readChain, hop]
            dsimp only
            rw [htakes (vs ++ others) (head?_append_congr hnext)]
            exact hmore others other hnext (by omega)

theorem readChain_refuses (hchain : rule.IsChain) (hsound : Sound rule.operand operand)
    (h : Predictive n (Derives rule.operand) operand) {ks : List Kind} {left : Expr}
    {tokens : List Token} {stop : Stop} (hleft : Derives rule ks left) (hlength : tokens.length ≤ n)
    (hread : readChain operand rule.op tokens.length left tokens = .error stop) :
    Refuses (fun kinds e => Derives rule (ks ++ kinds) e)
      (fun tokens => readChain operand rule.op tokens.length left tokens) tokens stop.position := by
  generalize hsize : tokens.length = size
  induction size using Nat.strongRecOn generalizing ks left tokens with
  | ind size ih =>
    cases tokens with
    | nil => cases hread
    | cons token tokens =>
      rw [List.length_cons, readChain] at hread
      cases hop : rule.op token.kind with
      | none =>
        rw [hop] at hread
        cases hread
      | some build =>
        rw [hop] at hread
        cases hoperand : operand tokens with
        | error stop' =>
          rw [hoperand] at hread
          cases hread
          refine (h.refuses (Nat.le_of_succ_le hlength) hoperand).after [token]
            (fun kinds hviable => ?_) fun others stop' _ hstop => ⟨stop', ?_⟩
          · obtain ⟨more, right, hright⟩ := hviable
            exact ⟨more, _, hchain.join hop hleft hright⟩
          · rw [List.singleton_append, List.length_cons, readChain, hop]
            dsimp only
            rw [hstop]
        | ok result =>
          obtain ⟨right, after⟩ := result
          rw [hoperand] at hread
          obtain ⟨us, rfl, hright, htakes⟩ :=
            h.reads hsound (Nat.le_of_succ_le hlength) hoperand
          have hjoined := hchain.join hop hleft hright
          have hle : after.length ≤ us.length + after.length := Nat.le_add_left _ _
          rw [List.length_cons, List.length_append] at hlength hsize
          rw [List.length_append] at hread
          dsimp only at hread
          rw [readChain_bound hsound hle (Nat.le_refl _)] at hread
          refine (ih after.length (by omega) hjoined (by omega) hread rfl).after (token :: us)
            (fun kinds hviable => ?_) fun others stop' hnext hstop => ⟨stop', ?_⟩
          · obtain ⟨more, e, he⟩ := hviable
            rw [List.append_assoc, List.cons_append] at he
            refine ⟨more, e, ?_⟩
            rwa [List.map_cons, List.cons_append, List.cons_append, List.append_assoc]
          · have hle : others.length ≤ us.length + others.length := Nat.le_add_left _ _
            rw [List.cons_append, List.length_cons, List.length_append, readChain, hop]
            dsimp only
            rw [htakes others hnext]
            dsimp only
            rwa [readChain_bound hsound hle (Nat.le_refl _)]

theorem Rule.IsChain.predictive (hchain : rule.IsChain) (hsound : Sound rule.operand operand)
    (h : Predictive n (Derives rule.operand) operand) :
    Predictive n (Derives rule) (chain operand rule.op) where
  takes := by
    intro tokens rest e hlength hread
    unfold chain at hread
    cases hoperand : operand tokens with
    | error stop =>
      rw [hoperand] at hread
      cases hread
    | ok result =>
      obtain ⟨left, after⟩ := result
      rw [hoperand] at hread
      obtain ⟨us, rfl, htakes⟩ := h.takes hlength hoperand
      rw [List.length_append] at hlength
      obtain ⟨vs, rfl, hmore⟩ := readChain_takes h (by omega) (Nat.le_refl _) hread
      refine ⟨us ++ vs, (List.append_assoc _ _ _).symm, fun others hnext => ?_⟩
      rw [List.append_assoc, chain, htakes _ (head?_append_congr hnext)]
      exact hmore others _ hnext (Nat.le_refl _)
  refuses := by
    intro tokens stop hlength hread
    unfold chain at hread
    cases hoperand : operand tokens with
    | error stop' =>
      rw [hoperand] at hread
      cases hread
      refine (h.refuses hlength hoperand).after [] (fun kinds hviable => ?_)
        fun others stop' _ hstop => ⟨stop', ?_⟩
      · obtain ⟨more, e, he⟩ := hviable
        exact ⟨more, e, hchain.base he⟩
      · rw [List.nil_append, chain, hstop]
    | ok result =>
      obtain ⟨left, after⟩ := result
      rw [hoperand] at hread
      obtain ⟨us, rfl, hleft, htakes⟩ := h.reads hsound hlength hoperand
      rw [List.length_append] at hlength
      refine (readChain_refuses hchain hsound h (hchain.base hleft) (by omega) hread).after us
        (fun kinds hviable => ?_) fun others stop' hnext hstop => ⟨stop', ?_⟩
      · obtain ⟨more, e, he⟩ := hviable
        exact ⟨more, e, by rwa [List.append_assoc]⟩
      · rw [chain, htakes others hnext]
        exact hstop

end Chain

/-! ## The rules above the factors -/

section Rules

variable {factor : Reader} {n : Nat}

theorem predictive_sum (hsound : Sound .factor factor) (h : Predictive n (Derives .factor) factor) :
    Predictive n (Derives .sum) (chain (chain factor productOp) sumOp) :=
  isChain_sum.predictive (chain_sound isChain_product hsound) (isChain_product.predictive hsound h)

/-- Whether the tokens start with a comparison operator. -/
def StartsCompare (tokens : List Token) : Prop :=
  ∃ op position rest, tokens = ⟨.compare op, position⟩ :: rest

theorem StartsCompare.of_head? {tokens others : List Token} (h : StartsCompare others)
    (hnext : others.head? = tokens.head?) : StartsCompare tokens := by
  obtain ⟨op, position, rest, rfl⟩ := h
  obtain ⟨after, rfl⟩ := List.head?_eq_some_iff.mp hnext.symm
  exact ⟨op, position, after, rfl⟩

theorem comparison_of_error {tokens : List Token} {stop : Stop}
    (h : chain (chain factor productOp) sumOp tokens = .error stop) :
    comparison factor tokens = .error stop := by
  unfold comparison
  dsimp only
  rw [h]

theorem comparison_of_op {tokens rest : List Token} {left : Expr} {op : CompareOp} {position : Nat}
    (h : chain (chain factor productOp) sumOp tokens =
      .ok (left, ⟨.compare op, position⟩ :: rest)) :
    comparison factor tokens =
      (chain (chain factor productOp) sumOp rest).map fun (right, rest) =>
        (.compare op left right, rest) := by
  unfold comparison
  dsimp only
  rw [h]
  dsimp only
  cases chain (chain factor productOp) sumOp rest <;> rfl

theorem comparison_of_not_startsCompare {tokens rest : List Token} {left : Expr}
    (h : chain (chain factor productOp) sumOp tokens = .ok (left, rest))
    (hrest : ¬StartsCompare rest) : comparison factor tokens = .ok (left, rest) := by
  unfold comparison
  dsimp only
  rw [h]
  split
  · next heq =>
    cases heq
    exact absurd ⟨_, _, _, rfl⟩ hrest
  · rfl

theorem predictive_comparison (hsound : Sound .factor factor)
    (h : Predictive n (Derives .factor) factor) :
    Predictive n (Derives .comparison) (comparison factor) where
  takes := by
    intro tokens rest e hlength hread
    have hsum := predictive_sum hsound h
    cases hleft : chain (chain factor productOp) sumOp tokens with
    | error stop =>
      rw [comparison_of_error hleft] at hread
      cases hread
    | ok result =>
      obtain ⟨left, after⟩ := result
      obtain ⟨us, rfl, hfirst⟩ := hsum.takes hlength hleft
      by_cases hop : StartsCompare after
      · obtain ⟨op, position, after, rfl⟩ := hop
        rw [comparison_of_op hleft] at hread
        cases hright : chain (chain factor productOp) sumOp after with
        | error stop =>
          rw [hright] at hread
          cases hread
        | ok result =>
          obtain ⟨right, rest'⟩ := result
          rw [hright] at hread
          cases hread
          rw [List.length_append, List.length_cons] at hlength
          obtain ⟨vs, rfl, hsecond⟩ := hsum.takes (by omega) hright
          refine ⟨us ++ ⟨.compare op, position⟩ :: vs,
            by rw [List.append_assoc, List.cons_append], fun others hnext => ?_⟩
          rw [List.append_assoc, List.cons_append,
            comparison_of_op (hfirst (⟨.compare op, position⟩ :: (vs ++ others)) rfl),
            hsecond others hnext]
          rfl
      · rw [comparison_of_not_startsCompare hleft hop] at hread
        cases hread
        exact ⟨us, rfl, fun others hnext =>
          comparison_of_not_startsCompare (hfirst others hnext)
            fun hstarts => hop (hstarts.of_head? hnext)⟩
  refuses := by
    intro tokens stop hlength hread
    have hsum := predictive_sum hsound h
    cases hleft : chain (chain factor productOp) sumOp tokens with
    | error stop' =>
      rw [comparison_of_error hleft] at hread
      cases hread
      refine (hsum.refuses hlength hleft).after [] (fun kinds hviable => ?_)
        fun others stop' _ hstop => ⟨stop', comparison_of_error hstop⟩
      obtain ⟨more, e, he⟩ := hviable
      exact ⟨more, e, .comparison he⟩
    | ok result =>
      obtain ⟨left, after⟩ := result
      obtain ⟨us, rfl, hl, hfirst⟩ := hsum.reads (sum_sound hsound) hlength hleft
      by_cases hop : StartsCompare after
      · obtain ⟨op, position, after, rfl⟩ := hop
        rw [comparison_of_op hleft] at hread
        cases hright : chain (chain factor productOp) sumOp after with
        | ok result =>
          rw [hright] at hread
          cases hread
        | error stop' =>
          rw [hright] at hread
          cases hread
          rw [List.length_append, List.length_cons] at hlength
          rw [List.append_cons]
          refine (hsum.refuses (by omega) hright).after (us ++ [⟨.compare op, position⟩])
            (fun kinds hviable => ?_) fun others stop' _ hstop => ⟨stop', ?_⟩
          · obtain ⟨more, right, hr⟩ := hviable
            refine ⟨more, .compare op left right, ?_⟩
            rw [List.map_append, List.append_assoc, List.append_assoc]
            exact .compare op hl hr
          · rw [List.append_assoc, List.singleton_append,
              comparison_of_op (hfirst (⟨.compare op, position⟩ :: others) rfl), hstop]
            rfl
      · rw [comparison_of_not_startsCompare hleft hop] at hread
        cases hread

theorem negation_of_bang {position : Nat} {tokens : List Token} :
    negation factor (⟨.bang, position⟩ :: tokens) =
      (negation factor tokens).map fun (inner, rest) => (.not inner, rest) := by
  rw [negation]
  cases negation factor tokens <;> rfl

theorem negation_of_ne_bang {tokens : List Token} (h : ∀ token ∈ tokens.head?, token.kind ≠ .bang) :
    negation factor tokens = comparison factor tokens := by
  unfold negation
  split
  · exact absurd rfl (h _ rfl)
  · rfl

theorem negation_takes (hsound : Sound .factor factor) (h : Predictive n (Derives .factor) factor)
    {tokens rest : List Token} {e : Expr} (hlength : tokens.length ≤ n)
    (hread : negation factor tokens = .ok (e, rest)) :
    ∃ ts, tokens = ts ++ rest ∧ ∀ others, others.head? = rest.head? →
      negation factor (ts ++ others) = .ok (e, others) := by
  generalize hsize : tokens.length = size
  induction size using Nat.strongRecOn generalizing tokens e with
  | ind size ih =>
    by_cases hbang : ∃ position after, tokens = ⟨.bang, position⟩ :: after
    · obtain ⟨position, after, rfl⟩ := hbang
      rw [negation_of_bang] at hread
      cases hinner : negation factor after with
      | error stop =>
        rw [hinner] at hread
        cases hread
      | ok result =>
        obtain ⟨inner, rest'⟩ := result
        rw [hinner] at hread
        cases hread
        obtain ⟨us, rfl, hmore⟩ := ih after.length (hsize ▸ Nat.lt_succ_self _)
          (Nat.le_of_succ_le hlength) hinner rfl
        refine ⟨⟨.bang, position⟩ :: us, rfl, fun others hnext => ?_⟩
        rw [List.cons_append, negation_of_bang, hmore others hnext]
        rfl
    · have hne := head_ne_of_not_starts hbang
      rw [negation_of_ne_bang hne] at hread
      obtain ⟨us, rfl, hmore⟩ := (predictive_comparison hsound h).takes hlength hread
      refine ⟨us, rfl, fun others hnext => ?_⟩
      rw [negation_of_ne_bang (head?_append_congr hnext ▸ hne)]
      exact hmore others hnext

theorem negation_refuses (hsound : Sound .factor factor)
    (h : Predictive n (Derives .factor) factor) {tokens : List Token} {stop : Stop}
    (hlength : tokens.length ≤ n) (hread : negation factor tokens = .error stop) :
    Refuses (Derives .negation) (negation factor) tokens stop.position := by
  generalize hsize : tokens.length = size
  induction size using Nat.strongRecOn generalizing tokens with
  | ind size ih =>
    by_cases hbang : ∃ position after, tokens = ⟨.bang, position⟩ :: after
    · obtain ⟨position, after, rfl⟩ := hbang
      rw [negation_of_bang] at hread
      cases hinner : negation factor after with
      | ok result =>
        rw [hinner] at hread
        cases hread
      | error stop' =>
        rw [hinner] at hread
        cases hread
        refine (ih after.length (hsize ▸ Nat.lt_succ_self _) (Nat.le_of_succ_le hlength) hinner
          rfl).after [⟨.bang, position⟩] (fun kinds hviable => ?_)
          fun others stop' _ hstop => ⟨stop', ?_⟩
        · obtain ⟨more, e, he⟩ := hviable
          exact ⟨more, .not e, .not he⟩
        · rw [List.singleton_append, negation_of_bang, hstop]
          rfl
    · have hne := head_ne_of_not_starts hbang
      rw [negation_of_ne_bang hne] at hread
      refine ((predictive_comparison hsound h).refuses hlength hread).after []
        (fun kinds hviable => ?_) fun others stop' hnext hstop => ⟨stop', ?_⟩
      · obtain ⟨more, e, he⟩ := hviable
        exact ⟨more, e, .negation he⟩
      · rw [List.nil_append, negation_of_ne_bang (hnext ▸ hne)]
        exact hstop

theorem predictive_negation (hsound : Sound .factor factor)
    (h : Predictive n (Derives .factor) factor) :
    Predictive n (Derives .negation) (negation factor) where
  takes := negation_takes hsound h
  refuses := negation_refuses hsound h

theorem predictive_expression (hsound : Sound .factor factor)
    (h : Predictive n (Derives .factor) factor) :
    Predictive n (Derives .expression) (expression factor) := by
  have hnegation := negation_sound hsound
  exact isChain_expression.predictive (chain_sound isChain_conjunction hnegation)
    (isChain_conjunction.predictive hnegation (predictive_negation hsound h))

end Rules

/-! ## Factors -/

/-- What stands in parentheses, after the opening one. -/
def parenthesized (inner : Reader) : Reader := fun tokens =>
  match inner tokens with
  | .ok (e, rest) => (close rest).map fun rest => (e, rest)
  | .error stop => .error stop

theorem predictive_parenthesized {inner : Reader} {n : Nat} (hsound : Sound .expression inner)
    (h : Predictive n (Derives .expression) inner) :
    Predictive n (fun kinds e => Derives .factor (.opening :: kinds) e) (parenthesized inner) where
  takes := by
    intro tokens rest e hlength hread
    unfold parenthesized at hread
    cases hinner : inner tokens with
    | error stop =>
      rw [hinner] at hread
      cases hread
    | ok result =>
      obtain ⟨e', after⟩ := result
      obtain ⟨us, rfl, hmore⟩ := h.takes hlength hinner
      cases hclose : close after with
      | error stop =>
        simp only [hinner, hclose, Except.map, reduceCtorEq] at hread
      | ok rest' =>
        simp only [hinner, hclose, Except.map, Except.ok.injEq, Prod.mk.injEq] at hread
        obtain ⟨rfl, rfl⟩ := hread
        obtain ⟨position, rfl⟩ := close_sound hclose
        refine ⟨us ++ [⟨.closing, position⟩], List.append_cons _ _ _, fun others _ => ?_⟩
        rw [List.append_assoc, List.singleton_append, parenthesized,
          hmore (⟨.closing, position⟩ :: others) rfl]
        rfl
  refuses := by
    intro tokens stop hlength hread
    unfold parenthesized at hread
    cases hinner : inner tokens with
    | error stop' =>
      rw [hinner] at hread
      cases hread
      refine (h.refuses hlength hinner).after [] (fun kinds hviable => ?_)
        fun others stop' _ hstop => ⟨stop', by rw [List.nil_append, parenthesized, hstop]⟩
      obtain ⟨more, e, he⟩ := hviable
      exact ⟨more ++ [.closing], e, by rw [← List.append_assoc]; exact .group he⟩
    | ok result =>
      obtain ⟨e, after⟩ := result
      obtain ⟨us, rfl, he, hmore⟩ := h.reads hsound hlength hinner
      cases hclose : close after with
      | ok rest =>
        simp only [hinner, hclose, Except.map, reduceCtorEq] at hread
      | error stop' =>
        simp only [hinner, hclose, Except.map, Except.error.injEq] at hread
        subst hread
        refine .unclosed hclose he (fun {kinds e} he => ⟨e, .group he⟩)
          fun others stop' hnext hstop => ⟨stop', ?_⟩
        rw [parenthesized, hmore others hnext]
        simp only [hstop, Except.map]

/-- What starts with a name, after that name: a property or a call. -/
def reference (first : String) : Reader := fun tokens =>
  match readPath [first] tokens with
  | .ok (path, ⟨.opening, _⟩ :: rest) => readCall path rest
  | .ok (path, rest) => .ok (.attr path, rest)
  | .error stop => .error stop

section Reference

variable {first : String} {tokens rest : List Token} {path : List String} {n : Nat}

theorem reference_of_error {stop : Stop} (h : readPath [first] tokens = .error stop) :
    reference first tokens = .error stop := by
  rw [reference, h]

theorem reference_of_opening {position : Nat}
    (h : readPath [first] tokens = .ok (path, ⟨.opening, position⟩ :: rest)) :
    reference first tokens = readCall path rest := by
  rw [reference, h]

theorem reference_of_ne_opening (h : readPath [first] tokens = .ok (path, rest))
    (hrest : ∀ token ∈ rest.head?, token.kind ≠ .opening) :
    reference first tokens = .ok (.attr path, rest) := by
  rw [reference, h]
  split
  · next heq =>
    cases heq
    exact absurd rfl (hrest _ rfl)
  · next heq =>
    cases heq
    rfl
  · next heq => cases heq

theorem predictive_reference (first : String) :
    Predictive n (fun kinds e => Derives .factor (.name first :: kinds) e) (reference first) where
  takes := by
    intro tokens rest e hlength hread
    cases hpath : readPath [first] tokens with
    | error stop =>
      rw [reference_of_error hpath] at hread
      cases hread
    | ok result =>
      obtain ⟨path, after⟩ := result
      obtain ⟨us, more, rfl, rfl, hus⟩ := readPath_sound hpath
      by_cases hopening : ∃ position rest, after = ⟨.opening, position⟩ :: rest
      · obtain ⟨position, after, rfl⟩ := hopening
        rw [reference_of_opening hpath] at hread
        rw [List.length_append, List.length_cons] at hlength
        have hafter : after.length ≤ n := by omega
        obtain ⟨vs, rfl, hmore⟩ := (predictive_readCall (hus first)).takes hafter hread
        refine ⟨us ++ ⟨.opening, position⟩ :: vs, by rw [List.append_assoc, List.cons_append],
          fun others hnext => ?_⟩
        have hnow : readPath [first] (us ++ ⟨.opening, position⟩ :: (vs ++ others)) = .ok (_, _) :=
          readPath_takes hpath rfl
        rw [List.append_assoc, List.cons_append, reference_of_opening hnow]
        exact hmore others hnext
      · have hne := head_ne_of_not_starts hopening
        rw [reference_of_ne_opening hpath hne] at hread
        cases hread
        exact ⟨us, rfl, fun others hnext =>
          reference_of_ne_opening (readPath_takes hpath hnext) (hnext ▸ hne)⟩
  refuses := by
    intro tokens stop hlength hread
    cases hpath : readPath [first] tokens with
    | error stop' =>
      rw [reference_of_error hpath] at hread
      cases hread
      refine ((predictive_readPath [first]).refuses hlength hpath).after []
        (fun kinds hviable => ?_) fun others stop' _ hstop => ⟨stop', reference_of_error hstop⟩
      obtain ⟨more, path, names, rfl, hnames⟩ := hviable
      exact ⟨more, _, .attr (hnames first)⟩
    | ok result =>
      obtain ⟨path, after⟩ := result
      obtain ⟨us, more, rfl, rfl, hus⟩ := readPath_sound hpath
      by_cases hopening : ∃ position rest, after = ⟨.opening, position⟩ :: rest
      · obtain ⟨position, after, rfl⟩ := hopening
        rw [reference_of_opening hpath] at hread
        rw [List.length_append, List.length_cons] at hlength
        have hafter : after.length ≤ n := by omega
        rw [List.append_cons]
        refine ((predictive_readCall (hus first)).refuses hafter hread).after
          (us ++ [⟨.opening, position⟩]) (fun kinds hviable => ?_)
          fun others stop' _ hstop => ⟨stop', ?_⟩
        · obtain ⟨more, e, he⟩ := hviable
          refine ⟨more, e, ?_⟩
          rw [List.map_append, List.append_assoc, List.append_assoc]
          exact he
        · have hnow : readPath [first] (us ++ ⟨.opening, position⟩ :: others) = .ok (_, _) :=
            readPath_takes hpath rfl
          rw [List.append_assoc, List.singleton_append, reference_of_opening hnow]
          exact hstop
      · rw [reference_of_ne_opening hpath (head_ne_of_not_starts hopening)] at hread
        cases hread

end Reference

section Factor

variable {α β : Type} {n : Nat} {form : List Kind → α → Prop} {form' : List Kind → β → Prop}
  {next : List Token → Except Stop (α × List Token)}
  {reader : List Token → Except Stop (β × List Token)} {token : Token} {tokens : List Token}
  {build : α → β}

theorem takes_cons (h : Predictive n form next)
    (hreader : ∀ tokens, reader (token :: tokens) =
      (next tokens).map fun (a, rest) => (build a, rest))
    {rest : List Token} {b : β} (hlength : (token :: tokens).length ≤ n + 1)
    (hread : reader (token :: tokens) = .ok (b, rest)) :
    ∃ ts, token :: tokens = ts ++ rest ∧ ∀ others, others.head? = rest.head? →
      reader (ts ++ others) = .ok (b, others) := by
  rw [hreader] at hread
  cases hinner : next tokens with
  | error stop =>
    rw [hinner] at hread
    cases hread
  | ok result =>
    obtain ⟨a, rest'⟩ := result
    rw [hinner] at hread
    cases hread
    obtain ⟨us, rfl, hmore⟩ := h.takes (Nat.le_of_succ_le_succ hlength) hinner
    refine ⟨token :: us, rfl, fun others hnext => ?_⟩
    rw [List.cons_append, hreader, hmore others hnext]
    rfl

theorem refuses_cons (h : Predictive n form next)
    (hreader : ∀ tokens, reader (token :: tokens) =
      (next tokens).map fun (a, rest) => (build a, rest))
    (hform : ∀ {kinds a}, form kinds a → form' (token.kind :: kinds) (build a)) {stop : Stop}
    (hlength : (token :: tokens).length ≤ n + 1) (hread : reader (token :: tokens) = .error stop) :
    Refuses form' reader (token :: tokens) stop.position := by
  rw [hreader] at hread
  cases hinner : next tokens with
  | ok result =>
    rw [hinner] at hread
    cases hread
  | error stop' =>
    rw [hinner] at hread
    cases hread
    refine (h.refuses (Nat.le_of_succ_le_succ hlength) hinner).after [token]
      (fun kinds hviable => ?_) fun others stop' _ hstop => ⟨stop', ?_⟩
    · obtain ⟨more, a, ha⟩ := hviable
      exact ⟨more, _, hform ha⟩
    · rw [List.singleton_append, hreader, hstop]
      rfl

end Factor

/-- A factor, with a bound that is always large enough. -/
def anyFactor : Reader := fun tokens => factor tokens.length tokens

theorem agree_anyFactor (n : Nat) : AgreeUpTo n (factor n) anyFactor := fun tokens hlength =>
  (factor_agree hlength tokens (Nat.le_refl _)).symm

theorem anyFactor_sound : Sound .factor anyFactor := fun tokens => factor_sound tokens.length tokens

theorem anyFactor_sub (position : Nat) (tokens : List Token) :
    anyFactor (⟨.arith .sub, position⟩ :: tokens) =
      (anyFactor tokens).map fun (e, rest) => (.neg e, rest) := by
  rw [anyFactor, List.length_cons, factor]
  change _ = (factor tokens.length tokens).map _
  cases factor tokens.length tokens <;> rfl

theorem anyFactor_opening (position : Nat) (tokens : List Token) :
    anyFactor (⟨.opening, position⟩ :: tokens) =
      (parenthesized (expression anyFactor) tokens).map fun (e, rest) => (id e, rest) := by
  have hagree := expression_agree (agree_anyFactor tokens.length) (factor_sound _) tokens
    (Nat.le_refl _)
  rw [anyFactor, List.length_cons, factor, hagree, parenthesized]
  cases expression anyFactor tokens with
  | error stop => rfl
  | ok result =>
    dsimp only
    cases close result.2 <;> rfl

theorem anyFactor_name (position : Nat) (first : String) (tokens : List Token) :
    anyFactor (⟨.name first, position⟩ :: tokens) =
      (reference first tokens).map fun (e, rest) => (id e, rest) := by
  rw [anyFactor, List.length_cons, factor]
  change reference first tokens = _
  cases reference first tokens <;> rfl

theorem predictive_anyFactor (n : Nat) : Predictive n (Derives .factor) anyFactor := by
  have hviable : Viable (Derives .factor) [] := ⟨[.str ""], _, .str ""⟩
  induction n with
  | zero =>
    constructor
    case takes =>
      intro tokens rest e hlength hread
      rw [List.length_eq_zero_iff.mp (Nat.le_zero.mp hlength)] at hread
      cases hread
    case refuses =>
      intro tokens stop hlength hread
      obtain rfl := List.length_eq_zero_iff.mp (Nat.le_zero.mp hlength)
      cases hread
      exact .atEnd hviable
  | succ n ih =>
    have hgroup := predictive_parenthesized (expression_sound anyFactor_sound)
      (predictive_expression anyFactor_sound ih)
    constructor
    case takes =>
      intro tokens rest e hlength hread
      cases tokens with
      | nil => cases hread
      | cons token tokens =>
        obtain ⟨kind, position⟩ := token
        cases kind with
        | name first =>
          exact takes_cons (predictive_reference first) (anyFactor_name position first) hlength
            hread
        | opening => exact takes_cons hgroup (anyFactor_opening position) hlength hread
        | arith op =>
          cases op with
          | sub => exact takes_cons ih (anyFactor_sub position) hlength hread
          | _ => cases hread
        | number value =>
          cases hread
          exact ⟨[⟨.number value, position⟩], rfl, fun others _ => rfl⟩
        | str s =>
          cases hread
          exact ⟨[⟨.str s, position⟩], rfl, fun others _ => rfl⟩
        | _ => cases hread
    case refuses =>
      intro tokens stop hlength hread
      cases tokens with
      | nil =>
        cases hread
        exact .atEnd hviable
      | cons token tokens =>
        obtain ⟨kind, position⟩ := token
        cases kind with
        | name first =>
          exact refuses_cons (predictive_reference first) (anyFactor_name position first) id hlength
            hread
        | opening => exact refuses_cons hgroup (anyFactor_opening position) id hlength hread
        | arith op =>
          cases op with
          | sub => exact refuses_cons ih (anyFactor_sub position) Derives.neg hlength hread
          | _ =>
            cases hread
            exact .atToken [] tokens hviable fun others => ⟨_, rfl⟩
        | number value => cases hread
        | str s => cases hread
        | _ =>
          cases hread
          exact .atToken [] tokens hviable fun others => ⟨_, rfl⟩

end CorpusQuery.Expr
