import CorpusQuery.Proofs.Cache.Lifetime
import CorpusQuery.Proofs.View.Refusals

/-!
# Calls that fail

A call of `materialize` that fails stores nothing. It may have swept the cache, which takes away
only what has expired, and it may have listed the files of the corpus anew
(`state_materialize_of_error`); whatever could be answered from the cache before can be answered
from it afterwards (`failure_keeps_cache`).
-/

namespace CorpusQuery.Definition

open Job

variable {definition : Definition} {corpus : Corpus} {around : Surroundings} {name : String}
  {force : Bool} {desk : Desk} {e : Error}

/-- What a call that fails leaves behind. The cache is swept if it was looked at. -/
theorem state_materialize_of_error {view : View} (hview : definition.view name = .ok view)
    (h : ((definition.materialize corpus around name force).run desk).result = .error e) :
    ((definition.materialize corpus around name force).run desk).state =
      { index := (Index.ofDisk around.disk corpus.root).toOption.getD desk.index
        cache := if force then desk.cache else desk.cache.prune around.ttl around.now
        made := desk.made } := by
  cases force with
  | true =>
    rw [materialize_forced hview] at h ⊢
    exact state_recompute_of_error h
  | false =>
    cases hfound : (desk.cache.get around.ttl around.now (definition.cacheKey corpus view)).1 with
    | some sheet =>
      rw [run_materialize_of_hit hview hfound] at h
      cases h
    | none =>
      rw [run_materialize_unforced hview hfound] at h ⊢
      exact state_recompute_of_error h

/-- A call that fails neither adds nor replaces an entry of the cache, and takes out only entries
that have expired, these only if it was not forced and there is such a view. So what is found in the
cache at any later time is what would have been found without the call. The index stays the same if
the files cannot be listed. -/
theorem failure_keeps_cache
    (h : ((definition.materialize corpus around name force).run desk).result = .error e) :
    let after := ((definition.materialize corpus around name force).run desk).state
    (force = true ∨ (∀ view ∈ definition.views, view.name ≠ name) → after.cache = desk.cache) ∧
      (force = false → (∃ view ∈ definition.views, view.name = name) →
        after.cache.entries = desk.cache.entries.filter (Cache.isLive around.ttl around.now)) ∧
      (∀ later key, around.now ≤ later →
        (after.cache.get around.ttl later key).1 = (desk.cache.get around.ttl later key).1) ∧
      ((∃ fault, Index.ofDisk around.disk corpus.root = .error fault) →
        after.index = desk.index) ∧
      after.made = desk.made := by
  intro after
  cases hview : definition.view name with
  -- An unknown view is noticed before anything is touched.
  | error e' =>
    have hafter : after = desk :=
      congrArg Outcome.state (run_materialize_of_unknown hview force desk)
    rw [hafter]
    refine ⟨fun _ => rfl, fun _ hexists => ?_, fun _ _ _ => rfl, fun _ => rfl, rfl⟩
    obtain ⟨view, hmem, hname⟩ := hexists
    exact absurd hname ((view_error_iff.mp hview).2 view hmem)
  | ok view =>
    have hafter := state_materialize_of_error hview h
    change after = _ at hafter
    rw [hafter]
    refine ⟨?_, ?_, ?_, ?_, rfl⟩
    · rintro (rfl | hnone)
      · rfl
      · obtain ⟨hmem, hname⟩ := mem_of_view hview
        exact absurd hname (hnone view hmem)
    · rintro rfl -
      rfl
    · intro later key hlater
      cases force with
      | true => rfl
      | false =>
        rw [Cache.get_eq, Cache.get_eq]
        exact congrArg _ (Cache.live?_prune hlater)
    · rintro ⟨fault, hwalk⟩
      rw [hwalk]
      rfl

/-- A corpus of notes that is strict about fields. -/
def strictNotes : Corpus := { noteCorpus with config := { strictFields := true } }

/-- A desk on which a table of `brokenView` is stored. -/
def stockedDesk : Desk where
  index := ⟨[]⟩
  cache := ⟨[⟨brokenDefinition.cacheKey strictNotes brokenView, ⟨0, []⟩, 0⟩]⟩
  made := 1

theorem failure_keeps_cache_of_broken :
    ∃ e, ((brokenDefinition.materialize strictNotes ⟨noteDisk, 30, fun _ => 60⟩ "v" true).run
        stockedDesk).result = .error e ∧
      (((brokenDefinition.materialize strictNotes ⟨noteDisk, 30, fun _ => 60⟩ "v" true).run
        stockedDesk).state.cache.get (fun _ => 60) 59 ⟨"notes", "v.base", "v"⟩).1 =
          some ⟨0, []⟩ := by
  have hfails : (match ((brokenDefinition.rowsFrom strictNotes ⟨noteDisk, 30, fun _ => 60⟩
      brokenView ⟨[["a.md"], ["b.md"]]⟩).run stockedDesk).result with
      | .ok _ => false
      | .error _ => true) = true := by
    decide +kernel
  have hresult : ((brokenDefinition.materialize strictNotes ⟨noteDisk, 30, fun _ => 60⟩ "v"
      true).run stockedDesk).result =
      ((brokenDefinition.rowsFrom strictNotes ⟨noteDisk, 30, fun _ => 60⟩ brokenView
        ⟨[["a.md"], ["b.md"]]⟩).run stockedDesk).result.map (Sheet.mk 1) :=
    result_materialize_of_miss rfl (.inl rfl) ofDisk_noteDisk
  cases hrows : ((brokenDefinition.rowsFrom strictNotes ⟨noteDisk, 30, fun _ => 60⟩ brokenView
      ⟨[["a.md"], ["b.md"]]⟩).run stockedDesk).result with
  | ok rows =>
    rw [hrows] at hfails
    cases hfails
  | error e =>
    rw [hrows] at hresult
    obtain ⟨-, -, hkept, -, -⟩ := failure_keeps_cache hresult
    exact ⟨e, hresult, hkept 59 ⟨"notes", "v.base", "v"⟩ (by decide)⟩

end CorpusQuery.Definition
