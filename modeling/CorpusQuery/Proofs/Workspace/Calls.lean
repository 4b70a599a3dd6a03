import CorpusQuery.Proofs.Cache.Lifetime
import CorpusQuery.Proofs.View.Rows
import CorpusQuery.Workspace

/-!
# Calls in a workspace

A call of `materialize` has one of three outcomes: there is no such view
(`run_materialize_of_error`), a live entry answers it (`run_materialize_of_found`), or the view is
computed (`run_materialize_of_none`). What a computation gives and reports depends on the disk alone
(`Definition.fresh`), and whether the cache was looked at before makes no difference to it.
-/

namespace CorpusQuery

open Job

/-! ## What the disk gives -/

namespace Definition

variable {definition : Definition} {corpus : Corpus} {around : Surroundings} {view : View}

/-- A view computed on a desk where nothing was done before. -/
def fresh (definition : Definition) (corpus : Corpus) (disk : Disk) (view : View) :
    Outcome Desk (List Row) :=
  match Index.ofDisk disk corpus.root with
  | .error fault => ⟨.error (.io fault), [], ⟨⟨[]⟩, .empty, 0⟩⟩
  | .ok index => (definition.rows { corpus, disk, index } view).run ⟨⟨[]⟩, .empty, 0⟩

theorem fresh_of_ok {index : Index} (hwalk : Index.ofDisk around.disk corpus.root = .ok index)
    (desk : Desk) :
    (definition.rowsFrom corpus around view index).run desk =
      ⟨(definition.fresh corpus around.disk view).result,
        (definition.fresh corpus around.disk view).events, desk⟩ := by
  unfold fresh rowsFrom
  rw [hwalk]
  exact (detached_rows definition ⟨corpus, around.disk, index⟩ view).run_eq _ desk

theorem fresh_of_error {fault : Disk.Fault}
    (hwalk : Index.ofDisk around.disk corpus.root = .error fault) :
    definition.fresh corpus around.disk view = ⟨.error (.io fault), [], ⟨⟨[]⟩, .empty, 0⟩⟩ := by
  unfold fresh
  rw [hwalk]

/-- A computation gives and reports what the disk gives, from any desk. -/
theorem result_recompute_eq (desk : Desk) :
    ((definition.recompute corpus around view).run desk).result =
      (definition.fresh corpus around.disk view).result.map (Sheet.mk desk.made) := by
  cases hwalk : Index.ofDisk around.disk corpus.root with
  | error fault =>
    rw [run_recompute_of_fault hwalk, fresh_of_error hwalk]
    rfl
  | ok index => rw [result_recompute hwalk, fresh_of_ok hwalk]

theorem messages_recompute_eq (desk : Desk) :
    Event.messages ((definition.recompute corpus around view).run desk).events =
      Event.messages (definition.fresh corpus around.disk view).events := by
  cases hwalk : Index.ofDisk around.disk corpus.root with
  | error fault => rw [run_recompute_of_fault hwalk, fresh_of_error hwalk]
  | ok index => rw [messages_recompute hwalk, fresh_of_ok hwalk]

theorem state_recompute_of_ok {desk : Desk} {rows : List Row}
    (h : (definition.fresh corpus around.disk view).result = .ok rows) :
    ((definition.recompute corpus around view).run desk).state =
      { index := (Index.ofDisk around.disk corpus.root).toOption.getD desk.index
        cache := desk.cache.put around.ttl around.now (definition.cacheKey corpus view)
          ⟨desk.made, rows⟩
        made := desk.made + 1 } := by
  cases hwalk : Index.ofDisk around.disk corpus.root with
  | error fault =>
    rw [fresh_of_error hwalk] at h
    cases h
  | ok index =>
    have hrows : ((definition.rowsFrom corpus around view index).run desk).result = .ok rows := by
      rw [fresh_of_ok hwalk, h]
    rw [run_recompute_of_ok hwalk hrows]
    rfl

end Definition

/-- The key under which a call for the view of the given name is answered. -/
def Definition.callKey (definition : Definition) (corpus : Corpus) (name : String) : CacheKey where
  corpus := corpus.name
  definition := definition.path
  view := name

theorem Definition.cacheKey_of_view {definition : Definition} {name : String} {view : View}
    (hview : definition.view name = .ok view) (corpus : Corpus) :
    definition.cacheKey corpus view = definition.callKey corpus name := by
  unfold cacheKey callKey
  rw [(mem_of_view hview).2]

namespace Workspace

variable {w : Workspace} {corpus : Corpus} {definition : Definition} {name : String}
  {view : View} {force : Bool}

/-! ## Indexes -/

theorem replaceIndex_self (name : String) (corpora : List (Corpus × Index)) :
    replaceIndex name
      (((corpora.find? fun entry => entry.1.name == name).map (·.2)).getD ⟨[]⟩) corpora =
      corpora := by
  induction corpora with
  | nil => rfl
  | cons entry entries ih =>
    rw [replaceIndex, List.find?_cons]
    cases entry.1.name == name with
    | true => rfl
    | false => exact congrArg (List.cons entry) ih

/-- Putting back what is there changes nothing. -/
theorem putDesk_desk (w : Workspace) (corpus : Corpus) (cache : Cache Sheet) :
    w.putDesk corpus { w.desk corpus with cache } = { w with cache } := by
  have hcorpora : replaceIndex corpus.name (w.indexOf corpus) w.corpora = w.corpora :=
    replaceIndex_self corpus.name w.corpora
  change { w with corpora := replaceIndex corpus.name (w.indexOf corpus) w.corpora, cache } = _
  rw [hcorpora]

/-- The corpora after the files of one of them have been listed, if they could be. -/
def listedCorpora (w : Workspace) (corpus : Corpus) : List (Corpus × Index) :=
  replaceIndex corpus.name ((Index.ofDisk w.disk corpus.root).toOption.getD (w.indexOf corpus))
    w.corpora

/-! ## Calls -/

theorem run_materialize (w : Workspace) (corpus : Corpus) (definition : Definition)
    (name : String) (force : Bool) :
    (materialize corpus definition name force).run w =
      let done := (definition.materialize corpus w.surroundings name force).run (w.desk corpus)
      ⟨done.result, done.events, w.putDesk corpus done.state⟩ := rfl

/-- The entry of the cache that answers a call. -/
def found? (w : Workspace) (key : CacheKey) (force : Bool) : Option (CacheEntry Sheet) :=
  if force then none else w.cache.live? w.ttl w.now key

theorem run_materialize_of_error {e : Error} (hview : definition.view name = .error e) :
    (materialize corpus definition name force).run w = ⟨.error e, [], w⟩ := by
  rw [run_materialize, Definition.run_materialize_of_unknown hview]
  exact congrArg _ (w.putDesk_desk corpus w.cache)

/-- An answer from the cache is for the log only. Nothing is changed but that the cache is swept. -/
theorem run_materialize_of_found {entry : CacheEntry Sheet}
    (hview : definition.view name = .ok view)
    (hfound : w.found? (definition.callKey corpus name) force = some entry) :
    (materialize corpus definition name force).run w =
      ⟨.ok entry.payload,
        w.surroundings.sweepEvents w.cache ++ [.log .debug "view served from cache"],
        { w with cache := w.cache.prune w.ttl w.now }⟩ := by
  cases force with
  | true => cases hfound
  | false =>
    have hhit : (w.cache.get w.ttl w.now (definition.cacheKey corpus view)).1 =
        some entry.payload := by
      rw [Cache.get_eq, Definition.cacheKey_of_view hview]
      exact congrArg (Option.map _) hfound
    rw [run_materialize, Definition.run_materialize_of_hit hview hhit]
    exact congrArg _ (w.putDesk_desk corpus _)

/-- Without such an entry the view is computed, on a desk whose cache has been swept unless the call
is forced. -/
theorem run_materialize_of_none (hview : definition.view name = .ok view)
    (hfound : w.found? (definition.callKey corpus name) force = none) :
    ∃ events swept, Event.messages events = [] ∧
      (swept = w.cache ∨ swept = w.cache.prune w.ttl w.now) ∧
      (materialize corpus definition name force).run w =
        let done := (definition.recompute corpus w.surroundings view).run
          { w.desk corpus with cache := swept }
        ⟨done.result, events ++ done.events, w.putDesk corpus done.state⟩ := by
  rw [run_materialize]
  cases force with
  | true =>
    rw [Definition.materialize_forced hview]
    exact ⟨[], w.cache, rfl, .inl rfl, rfl⟩
  | false =>
    have hmiss : (w.cache.get w.ttl w.now (definition.cacheKey corpus view)).1 = none := by
      rw [Cache.get_eq, Definition.cacheKey_of_view hview]
      exact congrArg (Option.map _) hfound
    rw [Definition.run_materialize_unforced hview hmiss]
    exact ⟨_, _, w.surroundings.messages_sweepEvents w.cache, .inr rfl, rfl⟩

section Computed

variable (hview : definition.view name = .ok view)
  (hfound : w.found? (definition.callKey corpus name) force = none)

include hview hfound

theorem result_materialize_of_none :
    ((materialize corpus definition name force).run w).result =
      (definition.fresh corpus w.disk view).result.map (Sheet.mk w.made) := by
  obtain ⟨events, swept, -, -, hrun⟩ := run_materialize_of_none hview hfound
  rw [hrun]
  exact Definition.result_recompute_eq _

theorem messages_materialize_of_none :
    Event.messages ((materialize corpus definition name force).run w).events =
      Event.messages (definition.fresh corpus w.disk view).events := by
  obtain ⟨events, swept, hevents, -, hrun⟩ := run_materialize_of_none hview hfound
  rw [hrun, Event.messages_append, hevents]
  exact Definition.messages_recompute_eq _

/-- If the rows can be computed, they are stored with the next number. -/
theorem state_materialize_of_ok {rows : List Row}
    (hfresh : (definition.fresh corpus w.disk view).result = .ok rows) :
    ((materialize corpus definition name force).run w).state =
      { w with
        corpora := w.listedCorpora corpus
        cache := w.cache.put w.ttl w.now (definition.callKey corpus name) ⟨w.made, rows⟩
        made := w.made + 1 } := by
  obtain ⟨events, swept, -, hswept, hrun⟩ := run_materialize_of_none hview hfound
  have hcache : swept.put w.ttl w.now (definition.callKey corpus name) ⟨w.made, rows⟩ =
      w.cache.put w.ttl w.now (definition.callKey corpus name) ⟨w.made, rows⟩ := by
    rcases hswept with rfl | rfl
    · rfl
    · rw [Cache.put_prune]
  rw [hrun, ← hcache, ← Definition.cacheKey_of_view hview]
  exact congrArg (w.putDesk corpus) (Definition.state_recompute_of_ok hfresh)

/-- If they cannot, the cache has at most been swept. -/
theorem state_materialize_of_error {e : Error}
    (hfresh : (definition.fresh corpus w.disk view).result = .error e) :
    ∃ swept, (swept = w.cache ∨ swept = w.cache.prune w.ttl w.now) ∧
      ((materialize corpus definition name force).run w).state =
        { w with corpora := w.listedCorpora corpus, cache := swept } := by
  obtain ⟨events, swept, -, hswept, hrun⟩ := run_materialize_of_none hview hfound
  have herror : ((definition.recompute corpus w.surroundings view).run
      { w.desk corpus with cache := swept }).result = .error e := by
    rw [Definition.result_recompute_eq]
    exact congrArg _ hfresh
  refine ⟨swept, hswept, ?_⟩
  rw [hrun]
  exact congrArg (w.putDesk corpus) (Definition.state_recompute_of_error herror)

theorem corpora_materialize_of_none :
    ((materialize corpus definition name force).run w).state.corpora = w.listedCorpora corpus := by
  cases hfresh : (definition.fresh corpus w.disk view).result with
  | ok rows => rw [state_materialize_of_ok hview hfound hfresh]
  | error e =>
    obtain ⟨swept, -, hstate⟩ := state_materialize_of_error hview hfound hfresh
    rw [hstate]

end Computed

/-- A call either stores a table that it has computed, or leaves a cache that has at most been
swept. -/
theorem state_materialize_cases (w : Workspace) (corpus : Corpus) (definition : Definition)
    (name : String) (force : Bool) :
    (∃ rows corpora,
      ((materialize corpus definition name force).run w).result = .ok ⟨w.made, rows⟩ ∧
      ((materialize corpus definition name force).run w).state =
        { w with
          corpora
          cache := w.cache.put w.ttl w.now (definition.callKey corpus name) ⟨w.made, rows⟩
          made := w.made + 1 }) ∨
    ∃ corpora swept, (swept = w.cache ∨ swept = w.cache.prune w.ttl w.now) ∧
      ((materialize corpus definition name force).run w).state =
        { w with corpora, cache := swept } := by
  cases hview : definition.view name with
  | error e =>
    rw [run_materialize_of_error hview]
    exact .inr ⟨w.corpora, w.cache, .inl rfl, rfl⟩
  | ok view =>
    cases hfound : w.found? (definition.callKey corpus name) force with
    | some entry =>
      rw [run_materialize_of_found hview hfound]
      exact .inr ⟨w.corpora, w.cache.prune w.ttl w.now, .inr rfl, rfl⟩
    | none =>
      cases hfresh : (definition.fresh corpus w.disk view).result with
      | ok rows =>
        refine .inl ⟨rows, w.listedCorpora corpus, ?_, state_materialize_of_ok hview hfound hfresh⟩
        rw [result_materialize_of_none hview hfound, hfresh]
        rfl
      | error e => exact .inr ⟨_, state_materialize_of_error hview hfound hfresh⟩

end Workspace

end CorpusQuery
