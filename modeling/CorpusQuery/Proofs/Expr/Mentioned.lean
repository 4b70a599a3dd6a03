import CorpusQuery.Proofs.Document.Reading

/-!
# What an expression mentions

An expression asks a scope only for the properties whose paths occur in it, and for the tags only if
a method `hasTag` does. So it has the same value, or fails with the same error, in two scopes that
answer alike as far as that goes (`evaluate_congr`). For documents, whose answers may read the
content first, it is enough that the answers would be alike if each were the first one asked for
(`evaluate_eq_of_mentioned`): a document that was read before is no different from one that is read
on the way.
-/

namespace CorpusQuery

namespace Expr

/-! ## Paths and methods -/

/-- The path that an argument asks for. -/
def Arg.path? : Arg → Option (List String)
  | .literal _ => none
  | .attr path => some path

/-- The paths that occur in an expression: properties, what methods are called on, and arguments. -/
def paths : Expr → List (List String)
  | .literal _ => []
  | .attr path => [path]
  | .call receiver _ args => receiver :: args.filterMap Arg.path?
  | .compare _ left right | .arith _ left right | .and left right | .or left right =>
    left.paths ++ right.paths
  | .neg inner | .not inner => inner.paths

/-- The methods that occur in an expression. -/
def methods : Expr → List String
  | .literal _ | .attr _ => []
  | .call _ name _ => [name]
  | .compare _ left right | .arith _ left right | .and left right | .or left right =>
    left.methods ++ right.methods
  | .neg inner | .not inner => inner.methods

theorem mem_paths_of_arg {receiver path : List String} {name : String} {args : List Arg}
    (h : .attr path ∈ args) : path ∈ (call receiver name args).paths :=
  List.mem_cons_of_mem _ (List.mem_filterMap.mpr ⟨_, h, rfl⟩)

/-- Two scopes that answer alike as far as an expression can ask. -/
structure AgreeOn {m : Type → Type} (e : Expr) (s t : Scope m) : Prop where
  property : ∀ path ∈ e.paths, s.property path = t.property path
  tags : "hasTag" ∈ e.methods → s.tags = t.tags

section Congruence

variable {m : Type → Type} {e part : Expr} {s t : Scope m}

/-- Scopes that agree on an expression agree on its parts. -/
theorem AgreeOn.mono (h : AgreeOn e s t) (hpaths : part.paths ⊆ e.paths)
    (hmethods : part.methods ⊆ e.methods) : AgreeOn part s t :=
  ⟨fun path hpath => h.property path (hpaths hpath), fun htag => h.tags (hmethods htag)⟩

variable [Monad m]

theorem mapM_arg_congr [LawfulMonad m] {args : List Arg}
    (h : ∀ path, .attr path ∈ args → s.property path = t.property path) :
    args.mapM (Arg.evaluate s) = args.mapM (Arg.evaluate t) := by
  induction args with
  | nil => rw [List.mapM_nil, List.mapM_nil]
  | cons arg args ih =>
    have hfirst : Arg.evaluate s arg = Arg.evaluate t arg := by
      cases arg with
      | literal value => rfl
      | attr path => exact h path List.mem_cons_self
    rw [List.mapM_cons, List.mapM_cons, hfirst,
      ih fun path hpath => h path (List.mem_cons_of_mem arg hpath)]

variable [MonadExceptOf Error m]

theorem applyMethod_congr {name : String} (h : name = "hasTag" → s.tags = t.tags) (target : Value)
    (args : List Value) : applyMethod s name target args = applyMethod t name target args := by
  unfold applyMethod
  split
  case h_5 =>
    unfold hasTag
    rw [h rfl]
  all_goals rfl

/-- Two scopes that agree on an expression give it the same value. -/
theorem evaluate_congr [LawfulMonad m] (h : AgreeOn e s t) : e.evaluate s = e.evaluate t := by
  induction e with
  | literal value => rfl
  | attr path => exact h.property path List.mem_cons_self
  | call receiver name args =>
    have hreceiver := h.property receiver List.mem_cons_self
    have hargs := mapM_arg_congr fun path hpath => h.property path (mem_paths_of_arg hpath)
    have htags : name = "hasTag" → s.tags = t.tags := by
      rintro rfl
      exact h.tags List.mem_cons_self
    rw [evaluate, evaluate, hreceiver, hargs]
    simp only [applyMethod_congr htags]
  | compare op left right ihl ihr | arith op left right ihl ihr | and left right ihl ihr
  | or left right ihl ihr =>
    have hleft := h.mono (List.subset_append_left _ _) (List.subset_append_left _ _)
    have hright := h.mono (List.subset_append_right _ _) (List.subset_append_right _ _)
    rw [evaluate, evaluate, ihl hleft, ihr hright]
  | neg inner ih | not inner ih =>
    rw [evaluate, evaluate, ih (h.mono (List.Subset.refl _) (List.Subset.refl _))]

end Congruence

end Expr

namespace Job

variable {σ ι α β : Type} {known : ι → σ → Prop}

/-! ## Work that gives the same -/

/-- Jobs that give the same result as one another, each from the states that are known for it, and
end in such states. -/
def Alike (known : ι → σ → Prop) (job : ι → Job σ α) : Prop :=
  ∃ result, ∀ i s, known i s → ((job i).run s).result = result ∧ known i ((job i).run s).state

theorem Alike.pure (a : α) : Alike known fun _ => (pure a : Job σ α) :=
  ⟨.ok a, fun _ _ hs => ⟨rfl, hs⟩⟩

theorem Alike.throw (e : Error) : Alike known fun _ => (throw e : Job σ α) :=
  ⟨.error e, fun _ _ hs => ⟨rfl, hs⟩⟩

theorem Alike.bind {job : ι → Job σ α} {next : α → ι → Job σ β} (h : Alike known job)
    (hnext : ∀ a, Alike known (next a)) : Alike known fun i => job i >>= fun a => next a i := by
  obtain ⟨first, hfirst⟩ := h
  cases first with
  | error e =>
    refine ⟨.error e, fun i s hs => ?_⟩
    obtain ⟨hresult, hstate⟩ := hfirst i s hs
    rw [run_bind_of_error hresult]
    exact ⟨rfl, hstate⟩
  | ok a =>
    obtain ⟨second, hsecond⟩ := hnext a
    refine ⟨second, fun i s hs => ?_⟩
    obtain ⟨hresult, hstate⟩ := hfirst i s hs
    rw [run_bind_of_ok hresult]
    exact hsecond i _ hstate

theorem uniformlyComposable_alike :
    UniformlyComposable fun {α : Type} (job : ι → Job σ α) => Alike known job where
  pure := .pure
  throw {_ e} _ := .throw e
  bind := .bind

end Job

open Job

/-! ## Scopes with a state -/

namespace Expr

variable {σ ι : Type} {e : Expr}

/-- A scope that refuses all questions but those that an expression can ask. -/
def restrict (e : Expr) (scope : Scope (Job σ)) : Scope (Job σ) where
  property path :=
    if path ∈ e.paths then scope.property path else throw (.field "" .unsupportedPath)
  tags := if "hasTag" ∈ e.methods then scope.tags else pure []

theorem evaluate_restrict (e : Expr) (scope : Scope (Job σ)) :
    e.evaluate (e.restrict scope) = e.evaluate scope :=
  evaluate_congr ⟨fun _ hpath => if_pos hpath, fun htag => if_pos htag⟩

/-- Scopes whose answers, as far as an expression can ask, are the same give it the same value. -/
theorem evaluate_alike {known : ι → σ → Prop} {scope : ι → Scope (Job σ)}
    (hproperty : ∀ path ∈ e.paths, Alike known fun i => (scope i).property path)
    (htags : "hasTag" ∈ e.methods → Alike known fun i => (scope i).tags) :
    Alike known fun i => e.evaluate (scope i) := by
  have hrestricted : Alike known fun i => e.evaluate (e.restrict (scope i)) := by
    refine evaluate_uniform uniformlyComposable_alike (fun path => ?_) ?_ e
    · by_cases hpath : path ∈ e.paths
      · simp only [restrict, if_pos hpath]
        exact hproperty path hpath
      · simp only [restrict, if_neg hpath]
        exact .throw _
    · by_cases htag : "hasTag" ∈ e.methods
      · simp only [restrict, if_pos htag]
        exact htags htag
      · simp only [restrict, if_neg htag]
        exact .pure _
  simpa only [evaluate_restrict] using hrestricted

end Expr

/-! ## Documents -/

namespace Document

/-- A document that is asked something: in which corpus it is, and what was read of it before. -/
structure Visit where
  snapshot : Snapshot
  doc : Document
  read : Option Content

namespace Visit

variable {α : Type}

/-- The content of the document, known or not. -/
def content (visit : Visit) (read : Option Content) : Content :=
  read.getD (Content.extract visit.snapshot visit.doc).1

/-- The states in which the document can be found after it has been asked something. -/
def Known (visit : Visit) (read : Option Content) : Prop :=
  visit.content read = visit.content visit.read

/-- What comes of work on the document. -/
def result (visit : Visit) (job : Snapshot → Document → Reading α) : Except Error α :=
  ((job visit.snapshot visit.doc).run visit.read).result

/-- What the document answers, each answer being the first one. -/
def answers (visit : Visit) : Scope (Except Error) where
  property path := visit.result fun snapshot doc => (doc.scope snapshot).property path
  tags := visit.result fun snapshot doc => (doc.scope snapshot).tags

/-- The value of an expression for the document. -/
def evaluate (visit : Visit) (e : Expr) : Except Error Value :=
  visit.result fun snapshot doc => e.evaluate (doc.scope snapshot)

/-- Whenever the content of a document is asked for, it is the same. -/
theorem alike_content (visit : Visit) :
    Alike (fun _ : Unit => visit.Known) fun _ => visit.doc.content visit.snapshot := by
  refine ⟨.ok (visit.content visit.read), fun _ s hs => ?_⟩
  cases s with
  | none =>
    rw [run_content_none]
    exact ⟨congrArg Except.ok hs, hs⟩
  | some content =>
    rw [run_content_some]
    exact ⟨congrArg Except.ok hs, hs⟩

/-- So is everything that is asked about it. -/
theorem alike_property (visit : Visit) (path : List String) :
    Alike (fun _ : Unit => visit.Known)
      fun _ => (visit.doc.scope visit.snapshot).property path :=
  property_uniform visit.snapshot.corpus
    (fun _ => ⟨visit.snapshot.disk, visit.snapshot.index⟩) uniformlyComposable_alike
    visit.alike_content false path

theorem alike_tags (visit : Visit) :
    Alike (fun _ : Unit => visit.Known) fun _ => (visit.doc.scope visit.snapshot).tags :=
  visit.alike_content.bind fun _ => .pure _

/-- If each of two documents gives the same whenever it is asked, they give the same as one another
just if they do at first. -/
theorem alike_of_result_eq {first second : Visit} {job : Snapshot → Document → Reading α}
    (halike : ∀ visit : Visit, Alike (fun _ : Unit => visit.Known)
      fun _ => job visit.snapshot visit.doc)
    (h : first.result job = second.result job) :
    Alike (fun b => (cond b first second).Known)
      fun b => job (cond b first second).snapshot (cond b first second).doc := by
  refine ⟨first.result job, fun b s hs => ?_⟩
  obtain ⟨result, hresult⟩ := halike (cond b first second)
  refine ⟨?_, (hresult () s hs).2⟩
  rw [(hresult () s hs).1, ← (hresult () _ rfl).1]
  cases b with
  | true => rfl
  | false => exact h.symm

theorem evaluate_eq_of_agreeOn {first second : Visit} {e : Expr}
    (h : e.AgreeOn first.answers second.answers) : first.evaluate e = second.evaluate e := by
  have hproperty (path : List String) (hpath : path ∈ e.paths) :
      first.result (fun snapshot doc => (doc.scope snapshot).property path) =
        second.result fun snapshot doc => (doc.scope snapshot).property path :=
    h.property path hpath
  have htags (htag : "hasTag" ∈ e.methods) :
      first.result (fun snapshot doc => (doc.scope snapshot).tags) =
        second.result fun snapshot doc => (doc.scope snapshot).tags :=
    h.tags htag
  obtain ⟨result, hresult⟩ := Expr.evaluate_alike
    (fun path hpath => alike_of_result_eq (fun visit => visit.alike_property path)
      (hproperty path hpath))
    fun htag => alike_of_result_eq alike_tags (htags htag)
  exact (hresult true first.read rfl).1.trans (hresult false second.read rfl).1.symm

end Visit

end Document

open Document

/-- The value of an expression, or the error, depends on what the expression mentions only. It is
the same in two scopes without a state that answer alike for the paths that occur in it and, if a
method `hasTag` does, for the tags; and it is the same for two documents of any two corpora that
do, whether they were read before or not. -/
theorem Expr.evaluate_eq_of_mentioned (e : Expr) :
    (∀ s t : Scope (Except Error), e.AgreeOn s t → e.evaluate s = e.evaluate t) ∧
      ∀ first second : Visit, e.AgreeOn first.answers second.answers →
        first.evaluate e = second.evaluate e :=
  ⟨fun _ _ => evaluate_congr, fun _ _ => Visit.evaluate_eq_of_agreeOn⟩

/-- A note about bread. -/
def Document.Visit.plain : Visit :=
  ⟨⟨{ name := "notes", root := ["notes"], config := {} }, .empty, ⟨[]⟩⟩, ⟨"/notes/a.md", "a.md"⟩,
    some { tags := ["bread"], properties := [("topic", .str "#bread")] }⟩

/-- A note about bread in another corpus, with a link and stars. -/
def Document.Visit.rated : Visit :=
  ⟨⟨{ name := "drafts", root := ["drafts"], config := {} }, .empty, ⟨[]⟩⟩,
    ⟨"/drafts/a.md", "a.md"⟩,
    some
      { tags := ["bread"], links := ["b.md"],
        properties := [("stars", .int 5), ("topic", .str "#bread")] }⟩

/-- How many stars a note has makes no difference to an expression that does not mention them, but
it does to one that does. -/
theorem Expr.evaluate_eq_of_mentioned_of_rated :
    let e : Expr := .and (.compare .eq (.attr ["state"]) (.literal (.str "")))
      (.call ["file"] "hasTag" [.attr ["topic"]])
    e.evaluate Visit.plain.answers = e.evaluate Visit.rated.answers ∧
      Visit.plain.evaluate e = Visit.rated.evaluate e ∧
      Visit.rated.evaluate e = .ok (.bool true) ∧
      Visit.plain.evaluate (.attr ["stars"]) ≠ Visit.rated.evaluate (.attr ["stars"]) := by
  intro e
  have hpaths : e.paths = [["state"], ["file"], ["topic"]] := rfl
  have hagree : e.AgreeOn Visit.plain.answers Visit.rated.answers := by
    refine ⟨fun path hpath => ?_, fun _ => rfl⟩
    simp only [hpaths, List.mem_cons, List.not_mem_nil, or_false] at hpath
    rcases hpath with rfl | rfl | rfl <;> rfl
  obtain ⟨hscopes, hvisits⟩ := e.evaluate_eq_of_mentioned
  refine ⟨hscopes _ _ hagree, hvisits _ _ hagree, rfl, ?_⟩
  have hplain : Visit.plain.evaluate (.attr ["stars"]) = .ok (.str "") := rfl
  have hrated : Visit.rated.evaluate (.attr ["stars"]) = .ok (.int 5) := rfl
  rw [hplain, hrated]
  nofun

end CorpusQuery
