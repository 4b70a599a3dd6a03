import CorpusQuery.Proofs.Document.Filtering

/-!
# Facts about the file

Only the tags, the links and the properties of the front matter need the content of a document.
Whatever else an expression or a filter asks for is known from the path, so work that asks for
nothing else is apart from the content (`detached_evaluate`, `detached_filter`).
-/

namespace CorpusQuery

open Job

/-- The property paths that lead into the content of a document. -/
inductive OfContent : List String → Prop
  | tags : OfContent ["file", "tags"]
  | links : OfContent ["file", "links"]
  | property {name : String} (h : name ≠ "file") : OfContent [name]

theorem ofContent_iff {path : List String} :
    OfContent path ↔
      path = ["file", "tags"] ∨ path = ["file", "links"] ∨ ∃ name ≠ "file", path = [name] := by
  constructor
  · rintro (_ | _ | h)
    · exact .inl rfl
    · exact .inr (.inl rfl)
    · exact .inr (.inr ⟨_, h, rfl⟩)
  · rintro (rfl | rfl | ⟨name, h, rfl⟩)
    · exact .tags
    · exact .links
    · exact .property h

/-- An expression that asks for nothing in the content of a document. Of `file` itself it can be
asked whether it has a tag. -/
def Expr.AvoidsContent : Expr → Prop
  | .literal _ => True
  | .attr path => ¬OfContent path
  | .call receiver name args =>
    ¬OfContent receiver ∧ (∀ path, .attr path ∈ args → ¬OfContent path) ∧
      (receiver = ["file"] → name ≠ "hasTag")
  | .compare _ left right | .arith _ left right | .and left right | .or left right =>
    left.AvoidsContent ∧ right.AvoidsContent
  | .neg inner | .not inner => inner.AvoidsContent

/-- A filter whose leaves ask for nothing in the content of a document. -/
def Filter.AvoidsContent (filter : Filter) : Prop :=
  ∀ leaf, filter.IsLeaf leaf → ∀ expr, Expr.compile leaf.source = .ok expr → expr.AvoidsContent

namespace Document

variable {snapshot : Snapshot} {doc : Document}

theorem detached_fileField {fact : FileField} (htags : fact ≠ .tags) (hlinks : fact ≠ .links)
    (shown : Bool) : Detached (doc.fileField snapshot shown fact) := by
  cases fact with
  | tags => exact absurd rfl htags
  | links => exact absurd rfl hlinks
  | _ => exact .pure _

theorem ofContent_of_ofName? {field : String} {fact : FileField}
    (h : FileField.ofName? field = some fact) (hfact : fact = .tags ∨ fact = .links) :
    OfContent ["file", field] := by
  unfold FileField.ofName? at h
  split at h
  case h_4 => exact .tags
  case h_5 => exact .links
  all_goals
    rcases hfact with rfl | rfl <;> cases h

theorem detached_property {path : List String} (h : ¬OfContent path) (shown : Bool) :
    Detached (doc.property snapshot shown path) := by
  unfold property
  split
  · split
    · next fact hfact =>
      refine detached_fileField (fun htags => ?_) (fun hlinks => ?_) shown
      · exact h (ofContent_of_ofName? hfact (.inl htags))
      · exact h (ofContent_of_ofName? hfact (.inr hlinks))
    · exact .throw _
  · exact .pure _
  · next name hname => exact absurd (.property hname) h
  · exact .throw _

/-- Only `file` itself is a document. -/
theorem property_ne_document {path : List String} (hfile : path ≠ ["file"]) (h : ¬OfContent path)
    {state : Option Content} {value : Value}
    (hvalue : ((doc.property snapshot false path).run state).result = .ok value) (other : String) :
    value ≠ .document other := by
  rintro rfl
  unfold property at hvalue
  split at hvalue
  · split at hvalue
    · next fact hfact =>
      cases fact with
      | tags => exact h (ofContent_of_ofName? hfact (.inl rfl))
      | links => exact h (ofContent_of_ofName? hfact (.inr rfl))
      | _ => cases hvalue
    · cases hvalue
  · exact hfile rfl
  · next name hname => exact h (.property hname)
  · cases hvalue

/-- A method needs the content of a document only to say whether the document has a tag. -/
theorem detached_applyMethod (scope : Scope Reading) {name : String} {target : Value}
    (h : name = "hasTag" → ∀ path, target ≠ .document path) (args : List Value) :
    Detached (Expr.applyMethod scope name target args) := by
  have hlift (x : Except EvalError Bool) : Detached (liftEval x : Reading Bool) :=
    composable_detached.uniformly.liftEval x
  unfold Expr.applyMethod
  split
  · split <;> exact hlift _
  · exact hlift _
  · split <;> exact hlift _
  · split
    · exact .pure _
    · exact hlift _
  · split
    · unfold Expr.hasTag
      split
      · exact absurd rfl (h rfl _)
      · exact hlift _
      · exact hlift _
    · exact hlift _
  · exact hlift _

theorem detached_evaluate {e : Expr} (h : e.AvoidsContent) :
    Detached (e.evaluate (doc.scope snapshot)) := by
  induction e with
  | literal value => exact .pure _
  | attr path => exact detached_property h false
  | call receiver name args =>
    obtain ⟨hreceiver, hargs, htag⟩ := h
    refine (detached_property hreceiver false).bind_of_result fun target htarget => ?_
    have htarget' : name = "hasTag" → ∀ path, target ≠ .document path := by
      intro hname path
      exact property_ne_document (fun hfile => htag hfile hname) hreceiver (htarget none) path
    refine Detached.bind ?_ fun values => (detached_applyMethod _ htarget' values).bind fun _ =>
      .pure _
    refine composable_detached.uniformly.mapM (f := fun arg _ => Expr.Arg.evaluate
      (doc.scope snapshot) arg) fun arg harg => ?_
    cases arg with
    | literal value => exact .pure value
    | attr path => exact detached_property (hargs path harg) false
  | compare op left right ihl ihr =>
    exact (ihl h.1).bind fun l => (ihr h.2).bind fun r =>
      (composable_detached.uniformly.liftEval _).bind fun b => .pure _
  | arith op left right ihl ihr =>
    exact (ihl h.1).bind fun l => (ihr h.2).bind fun r => composable_detached.uniformly.liftEval _
  | neg inner ih => exact (ih h).bind fun value => composable_detached.uniformly.liftEval _
  | not inner ih => exact (ih h).bind fun _ => .pure _
  | and left right ihl ihr =>
    refine (ihl h.1).bind fun value => ?_
    split
    · exact ihr h.2
    · exact .pure value
  | or left right ihl ihr =>
    refine (ihl h.1).bind fun value => ?_
    split
    · exact .pure value
    · exact ihr h.2

theorem detached_filter {filter : Filter} (h : filter.AvoidsContent) :
    Detached (filter.check snapshot doc) := by
  refine Filter.check_of_leaves doc (P := fun check => Detached (check snapshot)) .pure .bind filter
    fun leaf hleaf => ?_
  have hcompiled := leaf.compiled_eq
  have hrefuse (e : Error) (text details : String) : Detached
      (if snapshot.corpus.strictFields then throw e
        else do
          snapshot.corpus.notify .warning text details
          pure true : Reading Bool) := by
    split
    · exact .throw e
    · exact (Detached.report _).bind fun _ => .pure true
  unfold FieldFilter.check
  cases hresult : leaf.compiled with
  | error e => exact hrefuse _ _ _
  | ok expr =>
    have hexpr := h leaf hleaf expr (hcompiled.symm.trans hresult)
    have hcheck : Detached (expr.check (doc.scope snapshot)) :=
      (detached_evaluate hexpr).bind fun _ => .pure _
    refine hcheck.attempt.bind fun result => ?_
    cases result with
    | ok passed => exact .pure passed
    | error e => exact hrefuse _ _ _

/-! ## The content -/

theorem isSome_content_bind {α : Type} {next : Content → Reading α}
    (hnext : ∀ content, Detached (next content)) :
    ((doc.content snapshot >>= next).run none).state.isSome = true := by
  obtain ⟨result, events, hrun⟩ := hnext (Content.extract snapshot doc).1
  rw [run_bind, run_content_none]
  simp only [hrun, Option.isSome_some]

/-- A path into the content makes the document read, whatever comes of it. -/
theorem isSome_property {path : List String} (h : OfContent path) (shown : Bool) :
    ((doc.property snapshot shown path).run none).state.isSome = true := by
  cases h with
  | tags => exact isSome_content_bind fun _ => .pure _
  | links => exact isSome_content_bind fun _ => .pure _
  | @property name hname =>
    have heq : doc.property snapshot shown [name] =
        doc.frontMatterProperty snapshot shown name := by
      unfold property
      split <;> simp_all
    rw [heq]
    refine isSome_content_bind fun content => ?_
    split
    · exact .pure _
    · split
      · cases (doc.coverPath _).map Value.str with
        | ok value => exact .pure value
        | error e => exact .throw e
      · exact .pure _
    · exact .pure _

end Document

end CorpusQuery
