import CorpusQuery.Proofs.Document.Reading

/-!
# Filtering documents

What holds of the leaves of a filter and goes over from step to step holds of the filter
(`Filter.check_of_leaves`). So whether a document passes does not depend on what was read of it
before, and it passes two filters together if it passes each of them.
-/

namespace CorpusQuery

open Job Document

namespace Filter

variable {snapshot : Snapshot} {doc : Document}

/-! ## Leaves -/

/-- The expressions of a filter, at any depth. -/
inductive IsLeaf (leaf : FieldFilter) : Filter → Prop
  | field : IsLeaf leaf (.field leaf)
  | all {child : Filter} {children : List Filter} (mem : child ∈ children)
    (below : IsLeaf leaf child) : IsLeaf leaf (.all children)
  | any {child : Filter} {children : List Filter} (mem : child ∈ children)
    (below : IsLeaf leaf child) : IsLeaf leaf (.any children)

/-- A property of checks, as they are in each snapshot, that the checks of the leaves of a filter
have. -/
theorem check_of_leaves (doc : Document) {P : (Snapshot → Reading Bool) → Prop}
    (hpure : ∀ passed, P fun _ => pure passed)
    (hbind : ∀ {job : Snapshot → Reading Bool} {next : Bool → Snapshot → Reading Bool},
      P job → (∀ passed, P (next passed)) →
        P fun snapshot => job snapshot >>= fun passed => next passed snapshot)
    (filter : Filter)
    (hleaf : ∀ leaf : FieldFilter, IsLeaf leaf filter → P fun snapshot => leaf.check snapshot doc) :
    P fun snapshot => filter.check snapshot doc := by
  refine Filter.check.induct
    (fun filter => (∀ leaf, IsLeaf leaf filter → P fun snapshot => leaf.check snapshot doc) →
      P fun snapshot => filter.check snapshot doc)
    (fun filters => (∀ leaf, ∀ filter ∈ filters, IsLeaf leaf filter →
        P fun snapshot => leaf.check snapshot doc) →
      P fun snapshot => checkAny snapshot doc filters)
    (fun filters => (∀ leaf, ∀ filter ∈ filters, IsLeaf leaf filter →
        P fun snapshot => leaf.check snapshot doc) →
      P fun snapshot => checkAll snapshot doc filters)
    ?trivial ?field ?all ?any ?anyNil ?anyCons ?allNil ?allCons filter hleaf
  case trivial => exact fun _ => hpure true
  case field => exact fun leaf hleaf => hleaf leaf .field
  case all => exact fun children ih hleaf => ih fun leaf child hmem h => hleaf leaf (.all hmem h)
  case any => exact fun children ih hleaf => ih fun leaf child hmem h => hleaf leaf (.any hmem h)
  case anyNil => exact fun _ => hpure false
  case anyCons =>
    intro child children ih ihs hleaf
    refine @hbind _ (fun passed snapshot =>
      if passed then pure true else checkAny snapshot doc children)
      (ih fun leaf h => hleaf leaf child List.mem_cons_self h) fun passed => ?_
    cases passed with
    | true => exact hpure true
    | false => exact ihs fun leaf other h => hleaf leaf other (List.mem_cons_of_mem _ h)
  case allNil => exact fun _ => hpure true
  case allCons =>
    intro child children ih ihs hleaf
    refine @hbind _ (fun passed snapshot =>
      if passed then checkAll snapshot doc children else pure false)
      (ih fun leaf h => hleaf leaf child List.mem_cons_self h) fun passed => ?_
    cases passed with
    | true => exact ihs fun leaf other h => hleaf leaf other (List.mem_cons_of_mem _ h)
    | false => exact hpure false

/-- A property of checks that the checks of all expressions have. -/
theorem check_induction (doc : Document) {P : (Snapshot → Reading Bool) → Prop}
    (hpure : ∀ passed, P fun _ => pure passed)
    (hbind : ∀ {job : Snapshot → Reading Bool} {next : Bool → Snapshot → Reading Bool},
      P job → (∀ passed, P (next passed)) →
        P fun snapshot => job snapshot >>= fun passed => next passed snapshot)
    (hfield : ∀ filter : FieldFilter, P fun snapshot => filter.check snapshot doc)
    (filter : Filter) : P fun snapshot => filter.check snapshot doc :=
  check_of_leaves doc hpure hbind filter fun leaf _ => hfield leaf

theorem isLeaf_both {leaf : FieldFilter} {left right : Filter} (h : IsLeaf leaf (both left right)) :
    IsLeaf leaf left ∨ IsLeaf leaf right := by
  unfold both at h
  split at h
  · exact .inr h
  · exact .inl h
  · cases h with
    | all hmem hbelow =>
      simp only [List.mem_cons, List.not_mem_nil, or_false] at hmem
      rcases hmem with rfl | rfl
      · exact .inl hbelow
      · exact .inr hbelow

/-! ## Passing -/

theorem settled_field (filter : FieldFilter) :
    Settled snapshot doc (filter.check snapshot doc) := by
  have hrefuse : ∀ e text details, Settled snapshot doc
      (if snapshot.corpus.strictFields then throw e
        else do
          snapshot.corpus.notify .warning text details
          pure true : Reading Bool) := by
    intro e text details
    split
    · exact .throw e
    · exact (Settled.report _).bind fun _ => .pure true
  unfold FieldFilter.check
  cases filter.compiled with
  | error e => exact hrefuse _ _ _
  | ok expr =>
    have hcheck : Settled snapshot doc (expr.check (doc.scope snapshot)) :=
      (evaluate_composable composable_settled settled_content expr).bind fun _ => .pure _
    refine hcheck.attempt.bind fun result => ?_
    cases result with
    | ok passed => exact .pure passed
    | error e => exact hrefuse _ _ _

theorem settled_check (filter : Filter) : Settled snapshot doc (filter.check snapshot doc) :=
  check_induction doc (P := fun check => Settled snapshot doc (check snapshot)) .pure .bind
    settled_field filter

/-- Whether a document that has not been read passes a filter, and the check is no error. -/
def passes (snapshot : Snapshot) (filter : Filter) (doc : Document) : Bool :=
  match ((filter.check snapshot doc).run none).result with
  | .ok passed => passed
  | .error _ => false

theorem passes_eq {filter : Filter} {content : Option Content} {passed : Bool}
    (hcontent : IsRead snapshot doc content)
    (h : ((filter.check snapshot doc).run content).result = .ok passed) :
    filter.passes snapshot doc = passed := by
  rw [(settled_check filter).result_eq hcontent] at h
  unfold passes
  rw [h]

theorem passes_trivial : trivial.passes snapshot doc = true := rfl

/-- A document passes two filters together if it passes both; the second one is asked only of a
document that passes the first one. -/
theorem passes_both {left right : Filter} {passed : Bool}
    (h : (((both left right).check snapshot doc).run none).result = .ok passed) :
    passed = (left.passes snapshot doc && right.passes snapshot doc) := by
  have hall : (both left right = .all [left, right]) ∨
      (left = .trivial ∧ both left right = right) ∨
      (right = .trivial ∧ both left right = left) := by
    cases left <;> cases right <;> simp [both]
  rcases hall with heq | ⟨rfl, heq⟩ | ⟨rfl, heq⟩
  · rw [heq] at h
    have hcheck : (Filter.all [left, right]).check snapshot doc = (do
        if ← left.check snapshot doc then
          if ← right.check snapshot doc then pure true else pure false
        else pure false) := rfl
    rw [hcheck] at h
    obtain ⟨first, hfirst, h⟩ := result_bind_eq_ok h
    rw [passes_eq (.inl rfl) hfirst]
    cases first with
    | false =>
      cases h
      rfl
    | true =>
      rw [if_pos rfl] at h
      obtain ⟨second, hsecond, h⟩ := result_bind_eq_ok h
      rw [passes_eq ((settled_check left).isRead (.inl rfl)) hsecond]
      cases second <;> cases h <;> rfl
  · rw [heq] at h
    rw [passes_trivial, Bool.true_and, passes_eq (.inl rfl) h]
  · rw [heq] at h
    rw [passes_trivial, Bool.and_true, passes_eq (.inl rfl) h]

end Filter

end CorpusQuery
