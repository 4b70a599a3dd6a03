import CorpusQuery.Proofs.Workspace.Calls

/-!
# Sessions

A session is a list of steps on a workspace: changes of the disk, time that passes, sweeps,
invalidations and calls of `materialize`. For one key, the table that was computed last is followed
through a session (`latest?`). The cache answers for the key with this table as long as it is good,
and with nothing else (`Recalls`).
-/

namespace CorpusQuery.Workspace

open Job

/-! ## Steps -/

/-- What can be done in a workspace. -/
inductive Step
  | onDisk (change : Disk → Disk)
  | advance (milliseconds : Nat)
  | prune
  | invalidate (key : CacheKey)
  | materialize (corpus : Corpus) (definition : Definition) (name : String) (force : Bool)

/-- The workspace after a step. -/
def after (w : Workspace) : Step → Workspace
  | .onDisk change => ((onDisk change).run w).state
  | .advance milliseconds => ((advance milliseconds).run w).state
  | .prune => (prune.run w).state
  | .invalidate key => ((invalidate key).run w).state
  | .materialize corpus definition name force =>
    ((materialize corpus definition name force).run w).state

/-- The workspace after a session. -/
def afterAll (w : Workspace) (steps : List Step) : Workspace := steps.foldl after w

/-- Whether a step can make a difference to what is answered under a key. -/
def Step.concerns (key : CacheKey) : Step → Bool
  | .onDisk _ => true
  | .advance _ => true
  | .prune => false
  | .invalidate other => other == key
  | .materialize corpus definition name _ => definition.callKey corpus name == key

/-- Whether a step invalidates a key. -/
def Step.revokes (key : CacheKey) : Step → Bool
  | .invalidate other => other == key
  | _ => false

/-! ## The latest table -/

/-- The table that a step computes under a key: a call for the key has computed one if it has
counted one more. -/
def computed? (w : Workspace) (key : CacheKey) : Step → Option Sheet
  | .materialize corpus definition name force =>
    let done := (materialize corpus definition name force).run w
    if definition.callKey corpus name = key ∧ w.made < done.state.made then done.result.toOption
    else none
  | _ => none

/-- A table that has been computed: when it was stored, and whether its key has been invalidated
since. -/
structure Stored where
  sheet : Sheet
  storedAt : Nat
  revoked : Bool

namespace Stored

/-- Whether a table is still good: it was stored less than a lifetime ago. -/
def isLive (ttl : String → Nat) (now : Nat) (key : CacheKey) (stored : Stored) : Bool :=
  !stored.revoked && decide (now - stored.storedAt < ttl key.corpus)

/-- What there is to a table but its number. -/
def content (stored : Stored) : List Row × Nat × Bool :=
  (stored.sheet.rows, stored.storedAt, stored.revoked)

theorem isLive_of_content {stored stored' : Stored} (h : stored.content = stored'.content)
    (ttl : String → Nat) (now : Nat) (key : CacheKey) :
    stored.isLive ttl now key = stored'.isLive ttl now key := by
  have hstoredAt : stored.storedAt = stored'.storedAt := congrArg (·.2.1) h
  have hrevoked : stored.revoked = stored'.revoked := congrArg (·.2.2) h
  unfold isLive
  rw [hstoredAt, hrevoked]

/-- The table as an entry of the cache. -/
def entry (key : CacheKey) (stored : Stored) : CacheEntry Sheet :=
  ⟨key, stored.sheet, stored.storedAt⟩

end Stored

/-- What is known of the latest table under a key after a step. -/
def noted (w : Workspace) (key : CacheKey) (known : Option Stored) (step : Step) : Option Stored :=
  match w.computed? key step with
  | some sheet => some ⟨sheet, w.now, false⟩
  | none =>
    if step.revokes key then known.map fun stored => { stored with revoked := true } else known

/-- What is known of the latest table under a key after a session, from what was known before. -/
def latestFrom (key : CacheKey) : Workspace → Option Stored → List Step → Option Stored
  | _, known, [] => known
  | w, known, step :: steps => latestFrom key (w.after step) (w.noted key known step) steps

/-- The table that was computed last under a key in a session. -/
def latest? (start : Workspace) (key : CacheKey) (steps : List Step) : Option Stored :=
  latestFrom key start none steps

variable {w start : Workspace} {key : CacheKey} {known : Option Stored} {step : Step}
  {corpus : Corpus} {definition : Definition} {name : String} {view : View} {force : Bool}

theorem latestFrom_append (steps : List Step) :
    latestFrom key w known (steps ++ [step]) =
      (w.afterAll steps).noted key (latestFrom key w known steps) step := by
  induction steps generalizing w known with
  | nil => rfl
  | cons first steps ih => exact ih

/-! ## One step -/

theorem ttl_after (w : Workspace) (step : Step) : (w.after step).ttl = w.ttl := by
  cases step <;> rfl

theorem now_le_after (w : Workspace) (step : Step) : w.now ≤ (w.after step).now := by
  cases step with
  | advance milliseconds => exact Nat.le_add_right w.now milliseconds
  | _ => exact Nat.le_refl w.now

theorem computed?_materialize :
    w.computed? key (.materialize corpus definition name force) =
      if definition.callKey corpus name = key ∧
          w.made < ((materialize corpus definition name force).run w).state.made then
        ((materialize corpus definition name force).run w).result.toOption
      else none := rfl

theorem computed?_of_ne (h : definition.callKey corpus name ≠ key) :
    w.computed? key (.materialize corpus definition name force) = none :=
  if_neg fun hkey => h hkey.1

theorem computed?_of_made
    (h : ((materialize corpus definition name force).run w).state.made = w.made) :
    w.computed? key (.materialize corpus definition name force) = none :=
  if_neg fun hmade => absurd hmade.2 (Nat.not_lt.mpr (Nat.le_of_eq h))

/-- A call that is not answered from the cache computes what the disk gives. -/
theorem computed?_of_none (hview : definition.view name = .ok view)
    (hfound : w.found? (definition.callKey corpus name) force = none) :
    w.computed? (definition.callKey corpus name) (.materialize corpus definition name force) =
      ((definition.fresh corpus w.disk view).result.map (Sheet.mk w.made)).toOption := by
  cases hfresh : (definition.fresh corpus w.disk view).result with
  | ok rows =>
    have hmade : w.made < ((materialize corpus definition name force).run w).state.made := by
      rw [state_materialize_of_ok hview hfound hfresh]
      exact Nat.lt_succ_self w.made
    rw [computed?_materialize, if_pos ⟨rfl, hmade⟩, result_materialize_of_none hview hfound, hfresh]
  | error e =>
    obtain ⟨swept, -, hstate⟩ := state_materialize_of_error hview hfound hfresh
    exact computed?_of_made (by rw [hstate])

theorem made_le_after (w : Workspace) (step : Step) : w.made ≤ (w.after step).made := by
  cases step with
  | materialize corpus definition name force =>
    change w.made ≤ ((materialize corpus definition name force).run w).state.made
    rcases w.state_materialize_cases corpus definition name force with
      ⟨rows, corpora, -, hstate⟩ | ⟨corpora, swept, -, hstate⟩
    · rw [hstate]
      exact Nat.le_succ w.made
    · exact Nat.le_of_eq (by rw [hstate])
  | _ => exact Nat.le_refl w.made

/-- A table that is computed has a number that no table had before. -/
theorem number_of_computed? {sheet : Sheet} (h : w.computed? key step = some sheet) :
    sheet.number = w.made ∧ w.made < (w.after step).made := by
  cases step with
  | materialize corpus definition name force =>
    rw [computed?_materialize] at h
    split at h
    · next hcond =>
      refine ⟨?_, hcond.2⟩
      rcases w.state_materialize_cases corpus definition name force with
        ⟨rows, corpora, hresult, -⟩ | ⟨corpora, swept, -, hstate⟩
      · rw [hresult] at h
        cases h
        rfl
      · rw [hstate] at hcond
        exact absurd hcond.2 (Nat.lt_irrefl w.made)
    · cases h
  | _ => cases h

/-- What a step makes of the live entry under a key. -/
theorem live?_after {later : Nat} (h : (w.after step).now ≤ later) :
    (w.after step).cache.live? w.ttl later key =
      match w.computed? key step with
      | some sheet =>
        if later - w.now < w.ttl key.corpus then some ⟨key, sheet, w.now⟩ else none
      | none => if step.revokes key then none else w.cache.live? w.ttl later key := by
  cases step with
  | onDisk change => rfl
  | advance milliseconds => rfl
  | prune => exact Cache.live?_prune h
  | invalidate other =>
    change (w.cache.invalidate other).live? w.ttl later key =
      if other == key then none else w.cache.live? w.ttl later key
    by_cases hkey : other = key
    · rw [hkey, beq_self_eq_true, if_pos rfl]
      exact Cache.live?_invalidate_self
    · rw [beq_false_of_ne hkey, if_neg Bool.false_ne_true]
      exact Cache.live?_invalidate_of_ne hkey
  | materialize corpus definition name force =>
    change ((materialize corpus definition name force).run w).state.cache.live? w.ttl later key = _
    rcases w.state_materialize_cases corpus definition name force with
      ⟨rows, corpora, hresult, hstate⟩ | ⟨corpora, swept, hswept, hstate⟩
    -- Only a call that computes stores anything, and only under its own key.
    · by_cases hkey : definition.callKey corpus name = key
      · have hcomputed : w.computed? key (.materialize corpus definition name force) =
            some ⟨w.made, rows⟩ := by
          rw [computed?_materialize, if_pos ⟨hkey, hstate ▸ Nat.lt_succ_self w.made⟩, hresult]
          rfl
        rw [hcomputed, hstate, hkey]
        exact Cache.live?_put_self _
      · rw [computed?_of_ne hkey, hstate]
        exact Cache.live?_put_of_ne hkey h _
    · rw [computed?_of_made (by rw [hstate]), hstate]
      rcases hswept with rfl | rfl
      · rfl
      · exact Cache.live?_prune h

/-! ## What the cache recalls -/

/-- The cache answers for a key with the latest table as long as it is good, now and later, and the
table is one of those that have been computed. -/
structure Recalls (w : Workspace) (key : CacheKey) (known : Option Stored) : Prop where
  live : ∀ later, w.now ≤ later → w.cache.live? w.ttl later key =
    (known.filter (Stored.isLive w.ttl later key)).map (Stored.entry key)
  number : ∀ stored, known = some stored → stored.sheet.number < w.made

theorem recalls_of_empty (h : w.cache = .empty) : w.Recalls key none where
  live later _ := by
    rw [h]
    rfl
  number _ hstored := nomatch hstored

theorem Recalls.after (h : w.Recalls key known) (step : Step) :
    (w.after step).Recalls key (w.noted key known step) := by
  constructor
  · intro later hlater
    -- `noted` follows the same three ways as the live entry: replaced, revoked, or left as it is.
    rw [ttl_after, live?_after hlater]
    unfold noted
    cases w.computed? key step with
    | some sheet =>
      dsimp only
      rw [Option.filter_some]
      by_cases hlive : later - w.now < w.ttl key.corpus <;>
        simp [Stored.isLive, Stored.entry, hlive]
    | none =>
      cases step.revokes key with
      | true => cases known <;> simp [Stored.isLive, Option.filter_some]
      | false => exact h.live later (Nat.le_trans (now_le_after w step) hlater)
  · intro stored hstored
    unfold noted at hstored
    cases hcomputed : w.computed? key step with
    | some sheet =>
      rw [hcomputed] at hstored
      cases hstored
      obtain ⟨hnumber, hmade⟩ := number_of_computed? hcomputed
      exact hnumber ▸ hmade
    | none =>
      rw [hcomputed] at hstored
      refine Nat.lt_of_lt_of_le ?_ (made_le_after w step)
      cases hrevokes : step.revokes key with
      | true =>
        simp only [hrevokes, if_true, Option.map_eq_some_iff] at hstored
        obtain ⟨before, hbefore, rfl⟩ := hstored
        exact h.number before hbefore
      | false =>
        simp only [hrevokes, Bool.false_eq_true, if_false] at hstored
        exact h.number stored hstored

theorem Recalls.afterAll (h : w.Recalls key known) (steps : List Step) :
    (w.afterAll steps).Recalls key (latestFrom key w known steps) := by
  induction steps generalizing w known with
  | nil => exact h
  | cons step steps ih => exact ih (h.after step)

theorem Recalls.found_of_live {stored : Stored} (h : w.Recalls key (some stored))
    (hlive : stored.isLive w.ttl w.now key = true) :
    w.found? key false = some (stored.entry key) := by
  refine (h.live w.now (Nat.le_refl _)).trans ?_
  rw [Option.filter_some, if_pos hlive]
  rfl

theorem Recalls.found_of_not_live (h : w.Recalls key known)
    (hdead : ∀ stored, known = some stored → stored.isLive w.ttl w.now key = false) :
    w.found? key force = none := by
  cases force with
  | true => rfl
  | false =>
    refine (h.live w.now (Nat.le_refl _)).trans ?_
    cases known with
    | none => rfl
    | some stored =>
      rw [Option.filter_some, if_neg (Bool.eq_false_iff.mp (hdead stored rfl))]
      rfl

/-- A call gives the latest table exactly as long as it is good: what is computed anew has another
number. -/
theorem Recalls.result_iff {stored : Stored}
    (h : w.Recalls (definition.callKey corpus name) (some stored))
    (hview : definition.view name = .ok view) :
    ((materialize corpus definition name false).run w).result = .ok stored.sheet ↔
      stored.isLive w.ttl w.now (definition.callKey corpus name) = true := by
  cases hlive : stored.isLive w.ttl w.now (definition.callKey corpus name) with
  | true =>
    rw [run_materialize_of_found hview (h.found_of_live hlive)]
    exact ⟨fun _ => rfl, fun _ => rfl⟩
  | false =>
    have hfound : w.found? (definition.callKey corpus name) false = none := by
      refine h.found_of_not_live ?_
      rintro _ ⟨⟩
      exact hlive
    rw [result_materialize_of_none hview hfound]
    refine ⟨fun hresult => ?_, nofun⟩
    -- The call computes the view, under a number that is too high for the latest table.
    have hnumber := h.number stored rfl
    cases hfresh : (definition.fresh corpus w.disk view).result with
    | error e =>
      rw [hfresh] at hresult
      cases hresult
    | ok rows =>
      rw [hfresh] at hresult
      have hsheet : (⟨w.made, rows⟩ : Sheet) = stored.sheet := Except.ok.inj hresult
      rw [← hsheet] at hnumber
      exact absurd hnumber (Nat.lt_irrefl w.made)

/-- A call that is answered from the cache is not noted. -/
theorem noted_of_found {entry : CacheEntry Sheet} (hview : definition.view name = .ok view)
    (hfound : w.found? (definition.callKey corpus name) force = some entry) :
    w.noted key known (.materialize corpus definition name force) = known := by
  unfold noted
  rw [computed?_of_made (by rw [run_materialize_of_found hview hfound])]
  rfl

end CorpusQuery.Workspace
