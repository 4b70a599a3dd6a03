import CorpusQuery.Proofs.Expr.Parsing
import CorpusQuery.Proofs.Expr.Printed

/-!
# Printing and compiling

A text of a tree compiles to the tree, which derives from its tokens. A tree that compiles, and has
no doubles, can be printed, since its names, numbers and strings are those of tokens.
-/

namespace CorpusQuery

open Token

namespace Expr

/-! ## A tree derives from its tokens -/

theorem isPath_pathKinds {path : List String} (h : path ≠ []) : IsPath (pathKinds path) path := by
  induction path using pathKinds.induct with
  | case1 => exact absurd rfl h
  | case2 word => exact .name word
  | case3 word path hpath ih =>
    have hne : path ≠ [] := hpath
    rw [pathKinds]
    · exact .dot word (ih hne)
    · exact hpath

theorem isArgument_argKinds {arg : Arg} (h : IsPrintableArg arg) :
    IsArgument (argKinds arg) arg := by
  cases h with
  | literal h =>
    cases h with
    | int hint => exact .number _
    | str hstr => exact .str _
  | attr h => exact .path (isPath_pathKinds h.nonempty)

theorem isArguments_argsKinds {args : List Arg} (hne : args ≠ [])
    (h : ∀ arg ∈ args, IsPrintableArg arg) : IsArguments (argsKinds args) args := by
  induction args using argsKinds.induct with
  | case1 => exact absurd rfl hne
  | case2 arg => exact .last (isArgument_argKinds (h arg List.mem_cons_self))
  | case3 arg args hargs ih =>
    have hrest : args ≠ [] := hargs
    rw [argsKinds]
    · exact .more (isArgument_argKinds (h arg List.mem_cons_self))
        (ih hrest fun other hother => h other (List.mem_cons_of_mem _ hother))
    · exact hargs

theorem Derives.ofFactor {kinds : List Kind} {e : Expr} (h : Derives .factor kinds e) :
    Derives .sum kinds e :=
  .sum (.product h)

theorem Derives.ofSum {kinds : List Kind} {e : Expr} (h : Derives .sum kinds e) :
    Derives .negation kinds e :=
  .negation (.comparison h)

theorem Derives.ofNegation {kinds : List Kind} {e : Expr} (h : Derives .negation kinds e) :
    Derives .expression kinds e :=
  .expression (.conjunction h)

/-- The operators that stand between two operands. -/
inductive BinaryOp where
  | compare (op : CompareOp)
  | arith (op : ArithOp)
  | and
  | or

/-- The token of the operator. -/
def BinaryOp.kind : BinaryOp → Kind
  | .compare op => .compare op
  | .arith op => .arith op
  | .and => .and
  | .or => .or

/-- The tree of the operator and its operands. -/
def BinaryOp.join : BinaryOp → Expr → Expr → Expr
  | .compare op => .compare op
  | .arith op => .arith op
  | .and => .and
  | .or => .or

/-- Two factors are operands of any operator. -/
theorem BinaryOp.derives (o : BinaryOp) {ls rs : List Kind} {l r : Expr}
    (hl : Derives .factor ls l) (hr : Derives .factor rs r) :
    Derives .expression (ls ++ o.kind :: rs) (o.join l r) := by
  have hleft := hl.ofFactor.ofSum
  have hright := hr.ofFactor.ofSum
  cases o with
  | compare op => exact (Derives.negation (.compare op hl.ofFactor hr.ofFactor)).ofNegation
  | arith op =>
    cases op with
    | add => exact (Derives.add (.inl rfl) hl.ofFactor (.product hr)).ofSum.ofNegation
    | sub => exact (Derives.add (.inr rfl) hl.ofFactor (.product hr)).ofSum.ofNegation
    | mul => exact (Derives.sum (.mul (.inl rfl) (.product hl) hr)).ofSum.ofNegation
    | div => exact (Derives.sum (.mul (.inr rfl) (.product hl) hr)).ofSum.ofNegation
  | and => exact .expression (.and (.conjunction hleft) hright)
  | or => exact .or (.expression (.conjunction hleft)) (.conjunction hright)

theorem derives_kinds {e : Expr} (h : WellFormed e) : Derives .expression e.kinds e := by
  induction h with
  | literal h =>
    cases h with
    | int hint => exact (Derives.number _).ofFactor.ofSum.ofNegation
    | str hstr => exact (Derives.str _).ofFactor.ofSum.ofNegation
  | attr h => exact (Derives.attr (isPath_pathKinds h.nonempty)).ofFactor.ofSum.ofNegation
  | @call receiver method args hpath hmethod hargs =>
    have hcallee : IsPath (pathKinds (receiver ++ [method])) (receiver ++ [method]) :=
      isPath_pathKinds (List.concat_ne_nil _ _)
    by_cases hne : args = []
    · subst hne
      exact (Derives.callEmpty hcallee).ofFactor.ofSum.ofNegation
    · exact (Derives.call hcallee (isArguments_argsKinds hne hargs)).ofFactor.ofSum.ofNegation
  | compare op _ _ ihl ihr => exact (BinaryOp.compare op).derives (.group ihl) (.group ihr)
  | arith op _ _ ihl ihr => exact (BinaryOp.arith op).derives (.group ihl) (.group ihr)
  | neg _ ih => exact (Derives.neg (.group ih)).ofFactor.ofSum.ofNegation
  | not _ ih => exact (Derives.not (.ofSum (.ofFactor (.group ih)))).ofNegation
  | and _ _ ihl ihr => exact BinaryOp.and.derives (.group ihl) (.group ihr)
  | or _ _ ihl ihr => exact BinaryOp.or.derives (.group ihl) (.group ihr)

theorem compile_iff_of_reads {source : String} {kinds : List Kind}
    (h : Reads source.toList kinds) {e : Expr} :
    compile source = .ok e ↔ Derives .expression kinds e := by
  obtain ⟨tokens, htokens, rfl⟩ := h 0
  rw [compile_eq_ok_iff, tokenize_eq_ok.mpr ⟨tokens, htokens, rfl⟩]
  constructor
  · rintro ⟨others, heq, hderives⟩
    cases heq
    exact hderives
  · exact fun hderives => ⟨_, rfl, hderives⟩

/-- A text of a tree compiles to the tree. -/
theorem compile_of_prints {e : Expr} {source : String} (h : WellFormed e)
    (hprints : e.Prints source) : compile source = .ok e := by
  have hscans := scansBefore_kinds h [] scans_nil delimits_nil
  rw [List.append_nil] at hscans
  exact (compile_iff_of_reads (hscans _ hprints)).mpr (derives_kinds h)

/-! ## What compiles can be printed -/

theorem isPropertyPath_of_isPath {kinds : List Kind} {path : List String} (h : IsPath kinds path)
    (hproper : ∀ kind ∈ kinds, kind.IsProper) : IsPropertyPath path := by
  refine ⟨h.ne_nil, ?_⟩
  induction h with
  | name word =>
    intro other hother
    rw [List.mem_singleton.mp hother]
    exact hproper (.name word) List.mem_cons_self
  | dot word _ ih =>
    intro other hother
    rcases List.mem_cons.mp hother with rfl | hother
    · exact hproper (.name other) List.mem_cons_self
    · exact ih (fun kind hkind =>
        hproper kind (List.mem_cons_of_mem _ (List.mem_cons_of_mem _ hkind))) other hother

theorem isConstant_of_number {value : Value} (h : (Kind.number value).IsProper)
    (hfree : ConstantFloatFree value) : IsConstant value := by
  cases value with
  | int i => exact .int h
  | float x => exact absurd rfl (hfree x)
  | _ => exact absurd h id

theorem isPrintableArg_of_isArgument {kinds : List Kind} {arg : Arg} (h : IsArgument kinds arg)
    (hproper : ∀ kind ∈ kinds, kind.IsProper)
    (hfree : ∀ value, arg = .literal value → ConstantFloatFree value) : IsPrintableArg arg := by
  cases h with
  | path hpath => exact .attr (isPropertyPath_of_isPath hpath hproper)
  | str s => exact .literal (.str (hproper _ List.mem_cons_self))
  | number value =>
    exact .literal (isConstant_of_number (hproper _ List.mem_cons_self) (hfree value rfl))

theorem isPrintableArg_of_isArguments {kinds : List Kind} {args : List Arg}
    (h : IsArguments kinds args) (hproper : ∀ kind ∈ kinds, kind.IsProper)
    (hfree : ∀ value, .literal value ∈ args → ConstantFloatFree value) :
    ∀ arg ∈ args, IsPrintableArg arg := by
  induction h with
  | last harg =>
    intro arg hmem
    cases List.mem_singleton.mp hmem
    exact isPrintableArg_of_isArgument harg hproper fun value heq =>
      hfree value (heq ▸ List.mem_cons_self)
  | more harg _ ih =>
    intro arg hmem
    rcases List.mem_cons.mp hmem with rfl | hmem
    · refine isPrintableArg_of_isArgument harg
        (fun kind hkind => hproper kind (List.mem_append_left _ hkind)) fun value heq => ?_
      exact hfree value (heq ▸ List.mem_cons_self)
    · refine ih (fun kind hkind => hproper kind ?_) (fun value hvalue => hfree value ?_) arg hmem
      · exact List.mem_append_right _ (List.mem_cons_of_mem _ hkind)
      · exact List.mem_cons_of_mem _ hvalue

theorem wellFormed_of_derives {rule : Rule} {kinds : List Kind} {e : Expr}
    (h : Derives rule kinds e) (hproper : ∀ kind ∈ kinds, kind.IsProper) (hfree : FloatFree e) :
    WellFormed e := by
  have hsides : ∀ {left right : List Kind} {kind : Kind},
      (∀ other ∈ left ++ kind :: right, other.IsProper) →
      (∀ other ∈ left, other.IsProper) ∧ ∀ other ∈ right, other.IsProper :=
    fun h => ⟨fun other hother => h other (List.mem_append_left _ hother),
      fun other hother => h other (List.mem_append_right _ (List.mem_cons_of_mem _ hother))⟩
  have hcallee : ∀ {receiver : List String} {method : String},
      IsPropertyPath (receiver ++ [method]) → (∀ word ∈ receiver, IsWord word) ∧ IsWord method :=
    fun h => ⟨fun word hword => h.words word (List.mem_append_left _ hword),
      h.words _ (List.mem_append_right _ List.mem_cons_self)⟩
  induction h with
  | expression _ ih | conjunction _ ih | negation _ ih | comparison _ ih | sum _ ih
  | product _ ih => exact ih hproper hfree
  | or _ _ ihl ihr =>
    exact .or (ihl (hsides hproper).1 hfree.1) (ihr (hsides hproper).2 hfree.2)
  | and _ _ ihl ihr =>
    exact .and (ihl (hsides hproper).1 hfree.1) (ihr (hsides hproper).2 hfree.2)
  | compare op _ _ ihl ihr =>
    exact .compare op (ihl (hsides hproper).1 hfree.1) (ihr (hsides hproper).2 hfree.2)
  | @add _ _ _ _ op _ _ _ ihl ihr =>
    exact .arith op (ihl (hsides hproper).1 hfree.1) (ihr (hsides hproper).2 hfree.2)
  | @mul _ _ _ _ op _ _ _ ihl ihr =>
    exact .arith op (ihl (hsides hproper).1 hfree.1) (ihr (hsides hproper).2 hfree.2)
  | not _ ih =>
    exact .not (ih (fun kind hkind => hproper kind (List.mem_cons_of_mem _ hkind)) hfree)
  | neg _ ih =>
    exact .neg (ih (fun kind hkind => hproper kind (List.mem_cons_of_mem _ hkind)) hfree)
  | number value =>
    exact .literal (isConstant_of_number (hproper _ List.mem_cons_self) hfree)
  | str s => exact .literal (.str (hproper _ List.mem_cons_self))
  | group _ ih =>
    exact ih (fun kind hkind =>
      hproper kind (List.mem_cons_of_mem _ (List.mem_append_left _ hkind))) hfree
  | attr hpath => exact .attr (isPropertyPath_of_isPath hpath hproper)
  | callEmpty hpath =>
    obtain ⟨hwords, hmethod⟩ :=
      hcallee (isPropertyPath_of_isPath hpath (hsides hproper).1)
    exact .call hwords hmethod fun arg harg => absurd harg List.not_mem_nil
  | call hpath hargs =>
    obtain ⟨hwords, hmethod⟩ :=
      hcallee (isPropertyPath_of_isPath hpath (hsides hproper).1)
    refine .call hwords hmethod (isPrintableArg_of_isArguments hargs (fun kind hkind => ?_) hfree)
    exact (hsides hproper).2 kind (List.mem_append_left _ hkind)

/-- A well-formed tree has a text, and each of its texts compiles to it. A tree without doubles that
a text compiles to is well formed. -/
theorem compile_prints (e : Expr) :
    (WellFormed e → (∃ source, e.Prints source) ∧
      ∀ source, e.Prints source → compile source = .ok e) ∧
    ∀ source, compile source = .ok e → FloatFree e → WellFormed e := by
  refine ⟨fun h => ⟨exists_prints h, fun source hprints => compile_of_prints h hprints⟩, ?_⟩
  intro source hcompile hfree
  obtain ⟨tokens, htokens, hderives⟩ := compile_eq_ok_iff.mp hcompile
  exact wellFormed_of_derives hderives (isProper_of_tokenize htokens) hfree

end Expr

end CorpusQuery
