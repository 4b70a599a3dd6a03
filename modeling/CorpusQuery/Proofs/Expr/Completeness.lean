import CorpusQuery.Proofs.Expr.Soundness

/-!
# Completeness of the parser

What derives from a rule is read by the reader of the rule, which stops after it unless the next
token goes on with the rule or with a tighter one. Where a chain of operands is read, the derivation
of a part of the chain says how far the reader gets (`Reaches`), so that it can go on from there.
-/

namespace CorpusQuery.Expr

open Token (Kind)

/-! ## Tokens of given kinds -/

theorem eq_cons_of_kinds {ts : List Token} {kind : Kind} {kinds : List Kind}
    (h : ts.map Token.kind = kind :: kinds) :
    ∃ position more, ts = ⟨kind, position⟩ :: more ∧ more.map Token.kind = kinds := by
  obtain ⟨⟨first, position⟩, more, rfl, rfl, hmore⟩ := List.map_eq_cons_iff.mp h
  exact ⟨position, more, rfl, hmore⟩

theorem eq_singleton_of_kinds {ts : List Token} {kind : Kind} (h : ts.map Token.kind = [kind]) :
    ∃ position, ts = [⟨kind, position⟩] := by
  obtain ⟨position, more, rfl, hmore⟩ := eq_cons_of_kinds h
  exact ⟨position, by rw [List.map_eq_nil_iff.mp hmore]⟩

theorem eq_split_of_kinds {ts : List Token} {kind : Kind} {before after : List Kind}
    (h : ts.map Token.kind = before ++ kind :: after) :
    ∃ left position right, ts = left ++ ⟨kind, position⟩ :: right ∧
      left.map Token.kind = before ∧ right.map Token.kind = after := by
  obtain ⟨left, tail, rfl, hleft, htail⟩ := List.map_eq_append_iff.mp h
  obtain ⟨position, right, rfl, hright⟩ := eq_cons_of_kinds htail
  exact ⟨left, position, right, rfl, hleft, hright⟩

theorem eq_concat_of_kinds {ts : List Token} {kind : Kind} {kinds : List Kind}
    (h : ts.map Token.kind = kinds ++ [kind]) :
    ∃ more position, ts = more ++ [⟨kind, position⟩] ∧ more.map Token.kind = kinds := by
  obtain ⟨more, position, right, rfl, hmore, hright⟩ := eq_split_of_kinds h
  exact ⟨more, position, by rw [List.map_eq_nil_iff.mp hright], hmore⟩

/-! ## Where a reader stops -/

/-- The tokens do not start with one that goes on with the rule or with a tighter one. -/
def Stops (rule : Rule) (rest : List Token) : Prop :=
  ∀ token ∈ rest.head?, rule.level < levelOf token.kind

theorem Stops.mono {rule tighter : Rule} {rest : List Token} (h : Stops rule rest)
    (hlevel : tighter.level ≤ rule.level) : Stops tighter rest :=
  fun token htoken => Nat.lt_of_le_of_lt hlevel (h token htoken)

theorem stops_nil (rule : Rule) : Stops rule [] := by
  intro token htoken
  cases htoken

theorem stops_cons {rule : Rule} {token : Token} {rest : List Token}
    (h : rule.level < levelOf token.kind) : Stops rule (token :: rest) := by
  intro other hother
  cases hother
  exact h

theorem Stops.head {rule : Rule} {token : Token} {rest : List Token}
    (h : Stops rule (token :: rest)) : rule.level < levelOf token.kind :=
  h token rfl

/-! ## Bounds of chains -/

theorem Sound.length_le {rule : Rule} {reader : Reader} (h : Sound rule reader)
    {tokens rest : List Token} {e : Expr} (hread : reader tokens = .ok (e, rest)) :
    rest.length ≤ tokens.length := by
  obtain ⟨ts, rfl, -⟩ := h _ _ _ hread
  rw [List.length_append]
  exact Nat.le_add_left _ _

/-- A bound that is large enough for the tokens is as good as any other. -/
theorem readChain_bound {rule : Rule} {operand : Reader}
    {op : Kind → Option (Expr → Expr → Expr)} (hoperand : Sound rule operand)
    {bound other : Nat} {left : Expr} {tokens : List Token} (hbound : tokens.length ≤ bound)
    (hother : tokens.length ≤ other) :
    readChain operand op bound left tokens = readChain operand op other left tokens := by
  induction bound generalizing other left tokens with
  | zero =>
    rw [List.length_eq_zero_iff.mp (Nat.le_zero.mp hbound)]
    cases other <;> rfl
  | succ bound ih =>
    cases tokens with
    | nil => cases other <;> rfl
    | cons token tokens =>
      cases other with
      | zero => exact absurd hother (Nat.not_succ_le_zero _)
      | succ other =>
        rw [List.length_cons] at hbound hother
        rw [readChain, readChain]
        cases op token.kind with
        | none => rfl
        | some build =>
          dsimp only
          cases hread : operand tokens with
          | error stop => rfl
          | ok result =>
            obtain ⟨right, rest⟩ := result
            have hle := hoperand.length_le hread
            exact ih (by omega) (by omega)

theorem levelOf_eq_of_op {rule : Rule} {kind : Kind} {build : Expr → Expr → Expr}
    (h : rule.op kind = some build) : levelOf kind = rule.level := by
  cases rule with
  | expression => exact isChain_expression.level h
  | conjunction => exact isChain_conjunction.level h
  | sum => exact isChain_sum.level h
  | product => exact isChain_product.level h
  | negation | comparison | factor => cases h

/-- A chain ends where its rule stops. -/
theorem readChain_stops {rule : Rule} {operand : Reader} {bound : Nat} {left : Expr}
    {rest : List Token} (h : Stops rule rest) :
    readChain operand rule.op bound left rest = .ok (left, rest) := by
  cases bound with
  | zero => cases rest <;> rfl
  | succ bound =>
    cases rest with
    | nil => rfl
    | cons token rest =>
      rw [readChain]
      cases hop : rule.op token.kind with
      | none => rfl
      | some build => exact absurd h.head (levelOf_eq_of_op hop ▸ Nat.lt_irrefl _)

/-! ## How far a reader gets -/

theorem operand_level_le (rule : Rule) : rule.operand.level ≤ rule.level := by
  cases rule <;> decide

/-- From tokens of the given kinds the reader of the rule gets to the expression. If the rule is one
for chains, it goes on from there with the operators of the rule. -/
def Reaches (rule : Rule) (kinds : List Kind) (e : Expr) : Prop :=
  ∀ (bound : Nat) (ts rest : List Token), ts.map Token.kind = kinds →
    (ts ++ rest).length ≤ bound → Stops rule.operand rest →
      rule.reader bound (ts ++ rest) =
        readChain (rule.operand.reader bound) rule.op rest.length e rest

theorem Reaches.read {rule : Rule} {kinds : List Kind} {e : Expr} (h : Reaches rule kinds e)
    {bound : Nat} {ts rest : List Token} (hts : ts.map Token.kind = kinds)
    (hbound : (ts ++ rest).length ≤ bound) (hstop : Stops rule rest) :
    rule.reader bound (ts ++ rest) = .ok (e, rest) := by
  rw [h bound ts rest hts hbound (hstop.mono (operand_level_le rule)), readChain_stops hstop]

/-- What reads an expression where the rule stops reaches it, if the rule joins no operands. -/
theorem reaches_of_read {rule : Rule} {kinds : List Kind} {e : Expr} (hrule : rule.operand = rule)
    (h : ∀ (bound : Nat) (ts rest : List Token), ts.map Token.kind = kinds →
      (ts ++ rest).length ≤ bound → Stops rule rest →
        rule.reader bound (ts ++ rest) = .ok (e, rest)) : Reaches rule kinds e := by
  intro bound ts rest hts hbound hstop
  rw [hrule] at hstop
  rw [h bound ts rest hts hbound hstop, readChain_stops hstop]

theorem reader_sound (rule : Rule) (bound : Nat) : Sound rule (rule.reader bound) := by
  have hfactor := factor_sound bound
  have hproduct := chain_sound isChain_product hfactor
  have hconjunction := chain_sound isChain_conjunction (negation_sound hfactor)
  cases rule with
  | expression => exact chain_sound isChain_expression hconjunction
  | conjunction => exact hconjunction
  | negation => exact negation_sound hfactor
  | comparison => exact comparison_sound hfactor
  | sum => exact chain_sound isChain_sum hproduct
  | product => exact hproduct
  | factor => exact hfactor

section Chain

variable {rule : Rule} {ts us : List Kind} {l r e : Expr}

theorem Rule.IsChain.reaches_base (hchain : rule.IsChain) (h : Reaches rule.operand ts e) :
    Reaches rule ts e := by
  intro bound tokens rest htokens hbound hstop
  rw [hchain.reader, chain, h.read htokens hbound hstop]

theorem Rule.IsChain.reaches_join (hchain : rule.IsChain) {kind : Kind}
    {build : Expr → Expr → Expr} (hop : rule.op kind = some build) (hl : Reaches rule ts l)
    (hr : Reaches rule.operand us r) : Reaches rule (ts ++ kind :: us) (build l r) := by
  intro bound tokens rest htokens hbound hstop
  obtain ⟨before, position, operand, rfl, hbefore, hoperand⟩ := eq_split_of_kinds htokens
  rw [List.append_assoc, List.cons_append] at hbound ⊢
  have hlength : (operand ++ rest).length ≤ bound := by
    rw [List.length_append, List.length_cons] at hbound
    omega
  have hnext : Stops rule.operand (⟨kind, position⟩ :: (operand ++ rest)) :=
    stops_cons (hchain.level hop ▸ hchain.tighter)
  rw [hl bound before _ hbefore hbound hnext, List.length_cons, readChain, hop]
  dsimp only
  rw [hr.read hoperand hlength hstop]
  exact readChain_bound (reader_sound rule.operand bound)
    (by rw [List.length_append]; exact Nat.le_add_left _ _) (Nat.le_refl _)

end Chain

/-! ## Paths and calls -/

theorem readPath_complete {kinds : List Kind} {path : List String} (h : IsPath kinds path)
    {ts rest : List Token} (hts : ts.map Token.kind = kinds)
    (hstop : ∀ token ∈ rest.head?, token.kind ≠ .dot) :
    ∃ word position more, ts = ⟨.name word, position⟩ :: more ∧
      ∀ names, readPath (word :: names) (more ++ rest) = .ok (names.reverse ++ path, rest) := by
  induction h generalizing ts with
  | name word =>
    obtain ⟨position, rfl⟩ := eq_singleton_of_kinds hts
    refine ⟨word, position, [], rfl, fun names => ?_⟩
    rw [List.nil_append, ← List.reverse_cons]
    unfold readPath
    split
    · exact absurd rfl (hstop _ rfl)
    · exact absurd rfl (hstop _ rfl)
    · exact absurd rfl (hstop _ rfl)
    · rfl
  | dot word _ ih =>
    obtain ⟨position, tail, rfl, htail⟩ := eq_cons_of_kinds hts
    obtain ⟨dot, others, rfl, hothers⟩ := eq_cons_of_kinds htail
    obtain ⟨next, place, more, rfl, hread⟩ := ih hothers
    refine ⟨word, position, _, rfl, fun names => ?_⟩
    rw [List.cons_append, List.cons_append, readPath, hread, List.reverse_cons, List.append_assoc,
      List.singleton_append]

theorem readArgument_complete {kinds : List Kind} {arg : Arg} (h : IsArgument kinds arg)
    {ts rest : List Token} (hts : ts.map Token.kind = kinds)
    (hstop : ∀ token ∈ rest.head?, token.kind ≠ .dot) :
    readArgument (ts ++ rest) = .ok (arg, rest) := by
  cases h with
  | path hpath =>
    obtain ⟨word, position, more, rfl, hread⟩ := readPath_complete hpath hts hstop
    rw [List.cons_append, readArgument, hread []]
    rfl
  | str s =>
    obtain ⟨position, rfl⟩ := eq_singleton_of_kinds hts
    rfl
  | number value =>
    obtain ⟨position, rfl⟩ := eq_singleton_of_kinds hts
    rfl

theorem readArguments_complete {kinds : List Kind} {args : List Arg} (h : IsArguments kinds args)
    {bound : Nat} {ts rest : List Token} {position : Nat} (hts : ts.map Token.kind = kinds)
    (hbound : (ts ++ ⟨.closing, position⟩ :: rest).length ≤ bound) :
    readArguments bound (ts ++ ⟨.closing, position⟩ :: rest) = .ok (args, rest) := by
  induction h generalizing bound ts with
  | last harg =>
    cases bound with
    | zero =>
      rw [List.length_append, List.length_cons] at hbound
      omega
    | succ bound =>
      have hstop : ∀ token ∈ (⟨.closing, position⟩ :: rest : List Token).head?,
          token.kind ≠ .dot := by
        rintro token ⟨⟩
        exact Kind.noConfusion
      rw [readArguments, readArgument_complete harg hts hstop]
      rfl
  | more harg _ ih =>
    obtain ⟨before, comma, others, rfl, hbefore, hothers⟩ := eq_split_of_kinds hts
    rw [List.append_assoc, List.cons_append] at hbound ⊢
    have hlength := hbound
    rw [List.length_append, List.length_cons] at hlength
    cases bound with
    | zero => omega
    | succ bound =>
      have hstop : ∀ token ∈ (⟨.comma, comma⟩ :: (others ++ ⟨.closing, position⟩ :: rest) :
          List Token).head?, token.kind ≠ .dot := by
        rintro token ⟨⟩
        exact Kind.noConfusion
      rw [readArguments, readArgument_complete harg hbefore hstop]
      dsimp only
      rw [ih hothers (by omega)]

theorem readCall_complete {kinds : List Kind} {receiver : List String} {method : String}
    {args : List Arg} (h : IsArguments kinds args) {ts rest : List Token} {position : Nat}
    (hts : ts.map Token.kind = kinds) :
    readCall (receiver ++ [method]) (ts ++ ⟨.closing, position⟩ :: rest) =
      .ok (.call receiver method args, rest) := by
  obtain ⟨kind, others, rfl, hne⟩ := h.starts
  obtain ⟨place, more, rfl, -⟩ := eq_cons_of_kinds hts
  unfold readCall
  split
  · next heq =>
    cases heq
    exact absurd rfl hne
  · rw [readArguments_complete h hts (Nat.le_refl _), List.dropLast_concat, List.getLastD_concat]
    rfl

/-! ## Factors -/

section Factor

variable {bound : Nat} {rest : List Token}

theorem Stops.ne_dot (h : Stops .factor rest) : ∀ token ∈ rest.head?, token.kind ≠ .dot := by
  intro token htoken hdot
  have hlevel := h token htoken
  rw [hdot] at hlevel
  exact Nat.lt_irrefl _ hlevel

theorem Stops.ne_opening (h : Stops .factor rest) :
    ∀ token ∈ rest.head?, token.kind ≠ .opening := by
  intro token htoken hopening
  have hlevel := h token htoken
  rw [hopening] at hlevel
  exact Nat.lt_irrefl _ hlevel

theorem factor_attr {kinds : List Kind} {path : List String} (h : IsPath kinds path)
    {ts : List Token} (hts : ts.map Token.kind = kinds) (hbound : (ts ++ rest).length ≤ bound)
    (hstop : Stops .factor rest) : factor bound (ts ++ rest) = .ok (.attr path, rest) := by
  obtain ⟨word, position, more, rfl, hread⟩ := readPath_complete h hts hstop.ne_dot
  cases bound with
  | zero => exact absurd hbound (Nat.not_succ_le_zero _)
  | succ bound =>
    rw [List.cons_append, factor, hread []]
    split
    · next heq =>
      cases heq
      exact absurd rfl (hstop.ne_opening _ rfl)
    · next heq =>
      cases heq
      rfl
    · next heq => cases heq

theorem factor_call {kinds : List Kind} {path : List String} (h : IsPath kinds path)
    {ts : List Token} (hts : ts.map Token.kind = kinds) {position : Nat}
    (hbound : (ts ++ ⟨.opening, position⟩ :: rest).length ≤ bound) :
    factor bound (ts ++ ⟨.opening, position⟩ :: rest) = readCall path rest := by
  have hstop : ∀ token ∈ (⟨.opening, position⟩ :: rest : List Token).head?,
      token.kind ≠ .dot := by
    rintro token ⟨⟩
    exact Kind.noConfusion
  obtain ⟨word, place, more, rfl, hread⟩ := readPath_complete h hts hstop
  cases bound with
  | zero => exact absurd hbound (Nat.not_succ_le_zero _)
  | succ bound =>
    rw [List.cons_append, factor, hread []]
    rfl

end Factor

theorem reaches_neg {kinds : List Kind} {e : Expr} (h : Reaches .factor kinds e) :
    Reaches .factor (.arith .sub :: kinds) (.neg e) := by
  refine reaches_of_read rfl fun bound ts rest hts hbound hstop => ?_
  obtain ⟨position, inner, rfl, hinner⟩ := eq_cons_of_kinds hts
  cases bound with
  | zero => exact absurd hbound (Nat.not_succ_le_zero _)
  | succ bound =>
    have hread := h.read hinner (Nat.le_of_succ_le_succ hbound) hstop
    change factor bound (inner ++ rest) = _ at hread
    change factor (bound + 1) (⟨.arith .sub, position⟩ :: (inner ++ rest)) = _
    rw [factor, hread]

theorem reaches_number (value : Value) : Reaches .factor [.number value] (.literal value) := by
  refine reaches_of_read rfl fun bound ts rest hts hbound _ => ?_
  obtain ⟨position, rfl⟩ := eq_singleton_of_kinds hts
  cases bound with
  | zero => exact absurd hbound (Nat.not_succ_le_zero _)
  | succ bound => rfl

theorem reaches_str (s : String) : Reaches .factor [.str s] (.literal (.str s)) := by
  refine reaches_of_read rfl fun bound ts rest hts hbound _ => ?_
  obtain ⟨position, rfl⟩ := eq_singleton_of_kinds hts
  cases bound with
  | zero => exact absurd hbound (Nat.not_succ_le_zero _)
  | succ bound => rfl

theorem reaches_group {kinds : List Kind} {e : Expr} (h : Reaches .expression kinds e) :
    Reaches .factor (.opening :: (kinds ++ [.closing])) e := by
  refine reaches_of_read rfl fun bound ts rest hts hbound _ => ?_
  obtain ⟨position, tail, rfl, htail⟩ := eq_cons_of_kinds hts
  obtain ⟨inner, last, rfl, hinner⟩ := eq_concat_of_kinds htail
  rw [List.cons_append, List.append_assoc, List.singleton_append] at hbound ⊢
  cases bound with
  | zero => exact absurd hbound (Nat.not_succ_le_zero _)
  | succ bound =>
    have hread := h.read hinner (Nat.le_of_succ_le_succ hbound) (stops_cons (show 6 < 7 by decide))
    change expression (factor bound) _ = _ at hread
    change factor (bound + 1) _ = _
    rw [factor, hread]
    rfl

theorem reaches_attr {kinds : List Kind} {path : List String} (h : IsPath kinds path) :
    Reaches .factor kinds (.attr path) :=
  reaches_of_read rfl fun _ _ _ hts hbound hstop => factor_attr h hts hbound hstop

theorem reaches_callEmpty {kinds : List Kind} {receiver : List String} {method : String}
    (h : IsPath kinds (receiver ++ [method])) :
    Reaches .factor (kinds ++ [.opening, .closing]) (.call receiver method []) := by
  refine reaches_of_read rfl fun bound ts rest hts hbound _ => ?_
  obtain ⟨callee, position, tail, rfl, hcallee, htail⟩ := eq_split_of_kinds hts
  obtain ⟨last, rfl⟩ := eq_singleton_of_kinds htail
  rw [List.append_assoc, List.cons_append, List.singleton_append] at hbound ⊢
  change factor bound _ = _
  rw [factor_call h hcallee hbound, readCall, List.dropLast_concat, List.getLastD_concat]

theorem reaches_call {kinds others : List Kind} {receiver : List String} {method : String}
    {args : List Arg} (h : IsPath kinds (receiver ++ [method])) (hargs : IsArguments others args) :
    Reaches .factor (kinds ++ .opening :: (others ++ [.closing])) (.call receiver method args) := by
  refine reaches_of_read rfl fun bound ts rest hts hbound _ => ?_
  obtain ⟨callee, position, tail, rfl, hcallee, htail⟩ := eq_split_of_kinds hts
  obtain ⟨inner, last, rfl, hinner⟩ := eq_concat_of_kinds htail
  rw [List.append_assoc, List.cons_append, List.append_assoc, List.singleton_append] at hbound ⊢
  change factor bound _ = _
  rw [factor_call h hcallee hbound, readCall_complete hargs hinner]

/-! ## Comparisons and negations -/

theorem reaches_comparison {kinds : List Kind} {e : Expr} (h : Reaches .sum kinds e) :
    Reaches .comparison kinds e := by
  refine reaches_of_read rfl fun bound ts rest hts hbound hstop => ?_
  have hread := h.read hts hbound (hstop.mono (by decide))
  change chain (chain (factor bound) productOp) sumOp (ts ++ rest) = _ at hread
  change comparison (factor bound) (ts ++ rest) = _
  unfold comparison
  dsimp only
  rw [hread]
  split
  · next heq =>
    cases heq
    exact absurd hstop.head (Nat.lt_irrefl 3)
  · rfl

theorem reaches_compare {before after : List Kind} {l r : Expr} (op : CompareOp)
    (hl : Reaches .sum before l) (hr : Reaches .sum after r) :
    Reaches .comparison (before ++ .compare op :: after) (.compare op l r) := by
  refine reaches_of_read rfl fun bound ts rest hts hbound hstop => ?_
  obtain ⟨left, position, right, rfl, hleft, hright⟩ := eq_split_of_kinds hts
  rw [List.append_assoc, List.cons_append] at hbound ⊢
  have hlength : (right ++ rest).length ≤ bound := by
    rw [List.length_append, List.length_cons] at hbound
    omega
  have hfirst := hl.read hleft hbound (stops_cons (show 2 < 3 by decide))
  have hsecond := hr.read hright hlength (hstop.mono (by decide))
  change chain (chain (factor bound) productOp) sumOp _ = _ at hfirst hsecond
  change comparison (factor bound) _ = _
  unfold comparison
  dsimp only
  rw [hfirst]
  dsimp only
  rw [hsecond]

theorem reaches_not {kinds : List Kind} {e : Expr} (h : Reaches .negation kinds e) :
    Reaches .negation (.bang :: kinds) (.not e) := by
  refine reaches_of_read rfl fun bound ts rest hts hbound hstop => ?_
  obtain ⟨position, inner, rfl, hinner⟩ := eq_cons_of_kinds hts
  have hread := h.read hinner (Nat.le_of_succ_le hbound) hstop
  change negation (factor bound) (inner ++ rest) = _ at hread
  change negation (factor bound) (⟨.bang, position⟩ :: (inner ++ rest)) = _
  rw [negation, hread]

theorem reaches_negation {kinds : List Kind} {e : Expr} (hderives : Derives .comparison kinds e)
    (h : Reaches .comparison kinds e) : Reaches .negation kinds e := by
  refine reaches_of_read rfl fun bound ts rest hts hbound hstop => ?_
  have hread := h.read hts hbound (hstop.mono (by decide))
  change comparison (factor bound) (ts ++ rest) = _ at hread
  obtain ⟨kind, kinds, rfl, hne⟩ := hderives.starts
  obtain ⟨position, others, rfl, -⟩ := eq_cons_of_kinds hts
  change negation (factor bound) (⟨kind, position⟩ :: (others ++ rest)) = _
  unfold negation
  split
  · next heq =>
    cases heq
    exact absurd rfl (hne rfl)
  · exact hread

/-! ## Derivations -/

/-- What derives from a rule is read by the reader of the rule. -/
theorem reaches_of_derives {rule : Rule} {kinds : List Kind} {e : Expr}
    (h : Derives rule kinds e) : Reaches rule kinds e := by
  induction h with
  | expression _ ih => exact isChain_expression.reaches_base ih
  | or _ _ ihl ihr => exact isChain_expression.reaches_join rfl ihl ihr
  | conjunction _ ih => exact isChain_conjunction.reaches_base ih
  | and _ _ ihl ihr => exact isChain_conjunction.reaches_join rfl ihl ihr
  | not _ ih => exact reaches_not ih
  | negation h ih => exact reaches_negation h ih
  | comparison _ ih => exact reaches_comparison ih
  | compare op _ _ ihl ihr => exact reaches_compare op ihl ihr
  | sum _ ih => exact isChain_sum.reaches_base ih
  | add hop _ _ ihl ihr =>
    rcases hop with rfl | rfl
    · exact isChain_sum.reaches_join rfl ihl ihr
    · exact isChain_sum.reaches_join rfl ihl ihr
  | product _ ih => exact isChain_product.reaches_base ih
  | mul hop _ _ ihl ihr =>
    rcases hop with rfl | rfl
    · exact isChain_product.reaches_join rfl ihl ihr
    · exact isChain_product.reaches_join rfl ihl ihr
  | neg _ ih => exact reaches_neg ih
  | number value => exact reaches_number value
  | str s => exact reaches_str s
  | group _ ih => exact reaches_group ih
  | attr hpath => exact reaches_attr hpath
  | callEmpty hpath => exact reaches_callEmpty hpath
  | call hpath hargs => exact reaches_call hpath hargs

end CorpusQuery.Expr
