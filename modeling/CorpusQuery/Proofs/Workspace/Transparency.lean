import CorpusQuery.Proofs.View.Correspondence
import CorpusQuery.Proofs.Workspace.Session

/-!
# The cache in sessions

A call gives what it would give without a cache, unless the table that was computed last for its
key is still good (`materialize_transparent`). What is done under other keys has no part in this:
a session and the part of it that concerns the key lead to workspaces that are alike for the key
(`Alike.afterAll`).
-/

namespace CorpusQuery.Workspace

open Job

variable {w w' start : Workspace} {key : CacheKey} {known known' : Option Stored} {step : Step}
  {corpus : Corpus} {definition : Definition} {name : String} {view : View} {force : Bool}

/-! ## What is done under other keys -/

theorem not_computed_of_not_concerns (h : step.concerns key = false) :
    w.computed? key step = none := by
  cases step with
  | materialize corpus definition name force => exact computed?_of_ne (ne_of_beq_false h)
  | _ => rfl

theorem noted_of_not_concerns (h : step.concerns key = false) : w.noted key known step = known := by
  have hrevokes : step.revokes key = false := by
    cases step with
    | invalidate other => exact h
    | _ => rfl
  unfold noted
  rw [not_computed_of_not_concerns h, hrevokes]
  rfl

theorem disk_after_of_not_concerns (h : step.concerns key = false) :
    (w.after step).disk = w.disk := by
  cases step with
  | onDisk change => cases h
  | _ => rfl

theorem now_after_of_not_concerns (h : step.concerns key = false) :
    (w.after step).now = w.now := by
  cases step with
  | advance milliseconds => cases h
  | _ => rfl

/-- Two workspaces in which the same is known of a key, up to the number of its table. -/
structure Alike (key : CacheKey) (w : Workspace) (known : Option Stored) (w' : Workspace)
    (known' : Option Stored) : Prop where
  left : w.Recalls key known
  right : w'.Recalls key known'
  disk : w.disk = w'.disk
  now : w.now = w'.now
  ttl : w.ttl = w'.ttl
  content : known.map Stored.content = known'.map Stored.content

/-- A step that does not concern the key can be left out. -/
theorem Alike.skip (h : Alike key w known w' known') (hstep : step.concerns key = false) :
    Alike key (w.after step) (w.noted key known step) w' known' where
  left := h.left.after step
  right := h.right
  disk := (disk_after_of_not_concerns hstep).trans h.disk
  now := (now_after_of_not_concerns hstep).trans h.now
  ttl := (ttl_after w step).trans h.ttl
  content := by
    rw [noted_of_not_concerns hstep]
    exact h.content

/-- A call for the key is answered from the cache in both workspaces or in neither. -/
theorem Alike.found (h : Alike key w known w' known') (force : Bool) :
    (w.found? key force = none ∧ w'.found? key force = none) ∨
      ∃ entry entry', w.found? key force = some entry ∧ w'.found? key force = some entry' ∧
        entry.payload.rows = entry'.payload.rows := by
  cases force with
  | true => exact .inl ⟨rfl, rfl⟩
  | false =>
    have hcontent := h.content
    cases known with
    | none =>
      cases known' with
      | none => exact .inl ⟨h.left.found_of_not_live nofun, h.right.found_of_not_live nofun⟩
      | some stored' => cases hcontent
    | some stored =>
      cases known' with
      | none => cases hcontent
      | some stored' =>
        -- When a table was stored and whether it was revoked decides if it is good, not its number.
        have hsame : stored.content = stored'.content := Option.some.inj hcontent
        have hgood : stored.isLive w.ttl w.now key = stored'.isLive w'.ttl w'.now key := by
          rw [h.ttl, h.now, Stored.isLive_of_content hsame]
        cases hlive : stored.isLive w.ttl w.now key with
        | true =>
          exact .inr ⟨stored.entry key, stored'.entry key, h.left.found_of_live hlive,
            h.right.found_of_live (hgood ▸ hlive), congrArg Prod.fst hsame⟩
        | false =>
          refine .inl ⟨h.left.found_of_not_live ?_, h.right.found_of_not_live ?_⟩
          · rintro _ ⟨⟩
            exact hlive
          · rintro _ ⟨⟩
            exact hgood ▸ hlive

/-- Calls for the key give and report the same in both workspaces, and compute the same. -/
theorem Alike.materialize (h : Alike (definition.callKey corpus name) w known w' known')
    (force : Bool) :
    let call := materialize corpus definition name force
    (call.run w).result.map Sheet.rows = (call.run w').result.map Sheet.rows ∧
      Event.messages (call.run w).events = Event.messages (call.run w').events ∧
      (w.computed? (definition.callKey corpus name)
          (.materialize corpus definition name force)).map Sheet.rows =
        (w'.computed? (definition.callKey corpus name)
          (.materialize corpus definition name force)).map Sheet.rows := by
  dsimp only
  cases hview : definition.view name with
  | error e =>
    rw [computed?_of_made (by rw [run_materialize_of_error hview]),
      computed?_of_made (by rw [run_materialize_of_error hview]),
      run_materialize_of_error hview, run_materialize_of_error hview]
    exact ⟨rfl, rfl, rfl⟩
  | ok view =>
    rcases h.found force with ⟨hfound, hfound'⟩ | ⟨entry, entry', hfound, hfound', hrows⟩
    · rw [computed?_of_none hview hfound, computed?_of_none hview hfound',
        result_materialize_of_none hview hfound, result_materialize_of_none hview hfound',
        messages_materialize_of_none hview hfound, messages_materialize_of_none hview hfound',
        h.disk]
      refine ⟨?_, rfl, ?_⟩ <;> cases (definition.fresh corpus w'.disk view).result <;> rfl
    · rw [computed?_of_made (by rw [run_materialize_of_found hview hfound]),
        computed?_of_made (by rw [run_materialize_of_found hview hfound']),
        run_materialize_of_found hview hfound, run_materialize_of_found hview hfound']
      refine ⟨congrArg Except.ok hrows, ?_, rfl⟩
      dsimp only
      rw [Event.messages_append, Event.messages_append, Surroundings.messages_sweepEvents,
        Surroundings.messages_sweepEvents]

/-- What is computed under the key, and whether the key is invalidated, is all that is noted. -/
theorem Alike.content_noted (h : Alike key w known w' known')
    (hcomputed : (w.computed? key step).map Sheet.rows = (w'.computed? key step).map Sheet.rows) :
    (w.noted key known step).map Stored.content =
      (w'.noted key known' step).map Stored.content := by
  have hcontent := h.content
  unfold noted
  cases hleft : w.computed? key step with
  | some sheet =>
    cases hright : w'.computed? key step with
    | none =>
      rw [hleft, hright] at hcomputed
      cases hcomputed
    | some sheet' =>
      rw [hleft, hright] at hcomputed
      have hrows : sheet.rows = sheet'.rows := Option.some.inj hcomputed
      simp only [Option.map_some, Stored.content, hrows, h.now]
  | none =>
    cases hright : w'.computed? key step with
    | some sheet' =>
      rw [hleft, hright] at hcomputed
      cases hcomputed
    | none =>
      cases step.revokes key with
      | false => exact hcontent
      | true =>
        cases known <;> cases known' <;>
          simp_all [Stored.content]

/-- Every step keeps two such workspaces alike. -/
theorem Alike.after (h : Alike key w known w' known') (step : Step) :
    Alike key (w.after step) (w.noted key known step) (w'.after step)
      (w'.noted key known' step) where
  left := h.left.after step
  right := h.right.after step
  disk := by
    cases step with
    | onDisk change => exact congrArg change h.disk
    | _ => exact h.disk
  now := by
    cases step with
    | advance milliseconds => exact congrArg (· + milliseconds) h.now
    | _ => exact h.now
  ttl := by rw [ttl_after, ttl_after, h.ttl]
  content := by
    refine h.content_noted ?_
    cases hstep : step.concerns key with
    | false => rw [not_computed_of_not_concerns hstep, not_computed_of_not_concerns hstep]
    | true =>
      cases step with
      | materialize corpus definition name force =>
        -- A call that concerns the key is a call for it, and both workspaces answer it alike.
        obtain rfl := beq_iff_eq.mp hstep
        exact (h.materialize force).2.2
      | _ => rfl

/-- Of a session only the steps that concern the key matter. -/
theorem Alike.afterAll (h : Alike key w known w' known') (steps : List Step) :
    Alike key (w.afterAll steps) (latestFrom key w known steps)
      (w'.afterAll (steps.filter (·.concerns key)))
      (latestFrom key w' known' (steps.filter (·.concerns key))) := by
  induction steps generalizing w known w' known' with
  | nil => exact h
  | cons step steps ih =>
    rw [List.filter_cons]
    cases hstep : step.concerns key with
    | true => exact ih (h.after step)
    | false => exact ih (h.skip hstep)

/-! ## Transparency -/

/-- Let a call for a view come after a session that began with an empty cache. It gives the table
that was computed last for this view if and only if that table was stored less than a lifetime ago
and has not been invalidated since. Such an answer comes without a message, does not depend on the
disk, leaves all indexes as they are, and does not count as storing the table again. In all other
cases the call gives and reports what a forced call does, and leaves the same indexes behind. What
the session did under other keys has no part in this. -/
theorem materialize_transparent (hempty : start.cache = .empty) (steps : List Step)
    (corpus : Corpus) (definition : Definition) (name : String) :
    let key := definition.callKey corpus name
    let w := start.afterAll steps
    let call := materialize corpus definition name false
    let forced := materialize corpus definition name true
    let concerning := steps.filter (·.concerns key)
    let alone := start.afterAll concerning
    (∀ view stored, definition.view name = .ok view → start.latest? key steps = some stored →
      ((call.run w).result = .ok stored.sheet ↔ stored.isLive w.ttl w.now key = true) ∧
      (stored.isLive w.ttl w.now key = true →
        Event.messages (call.run w).events = [] ∧
        (∀ disk, call.run { w with disk } =
          ⟨.ok stored.sheet, (call.run w).events, { (call.run w).state with disk }⟩) ∧
        (call.run w).state.corpora = w.corpora ∧
        start.latest? key (steps ++ [.materialize corpus definition name false]) = some stored)) ∧
    ((¬∃ view stored, definition.view name = .ok view ∧ start.latest? key steps = some stored ∧
        stored.isLive w.ttl w.now key = true) →
      (call.run w).result = (forced.run w).result ∧
      Event.messages (call.run w).events = Event.messages (forced.run w).events ∧
      (call.run w).state.corpora = (forced.run w).state.corpora) ∧
    (start.latest? key concerning).map Stored.content =
      (start.latest? key steps).map Stored.content ∧
    (call.run alone).result.map Sheet.rows = (call.run w).result.map Sheet.rows ∧
    Event.messages (call.run alone).events = Event.messages (call.run w).events := by
  intro key w call forced concerning alone
  have hrecalls : w.Recalls key (start.latest? key steps) :=
    (recalls_of_empty hempty).afterAll steps
  have halike : Alike key w (start.latest? key steps) alone (start.latest? key concerning) :=
    Alike.afterAll ⟨recalls_of_empty hempty, recalls_of_empty hempty, rfl, rfl, rfl, rfl⟩ steps
  obtain ⟨hresult, hmessages, -⟩ := halike.materialize false
  refine ⟨?_, ?_, halike.content.symm, hresult.symm, hmessages.symm⟩
  -- There is a latest table: it answers if it is good.
  · intro view stored hview hlatest
    rw [hlatest] at hrecalls
    refine ⟨hrecalls.result_iff hview, fun hlive => ?_⟩
    have hfound := hrecalls.found_of_live hlive
    have hrun : call.run w = _ := run_materialize_of_found hview hfound
    refine ⟨?_, fun disk => ?_, ?_, ?_⟩
    · rw [hrun, Event.messages_append, Surroundings.messages_sweepEvents]
      rfl
    · rw [hrun]
      exact run_materialize_of_found (w := { w with disk }) hview hfound
    · rw [hrun]
    · unfold latest?
      rw [latestFrom_append]
      exact (noted_of_found hview hfound).trans hlatest
  -- There is none that is good: both calls compute the view from the same disk.
  · intro hnone
    cases hview : definition.view name with
    | error e =>
      have hcall : call.run w = _ := run_materialize_of_error hview
      have hforced : forced.run w = _ := run_materialize_of_error hview
      rw [hcall, hforced]
      exact ⟨rfl, rfl, rfl⟩
    | ok view =>
      have hfound : ∀ force, w.found? key force = none := fun force =>
        hrecalls.found_of_not_live fun stored hlatest =>
          Bool.eq_false_iff.mpr fun hlive => hnone ⟨view, stored, hview, hlatest, hlive⟩
      exact ⟨(result_materialize_of_none hview (hfound false)).trans
          (result_materialize_of_none hview (hfound true)).symm,
        (messages_materialize_of_none hview (hfound false)).trans
          (messages_materialize_of_none hview (hfound true)).symm,
        (corpora_materialize_of_none hview (hfound false)).trans
          (corpora_materialize_of_none hview (hfound true)).symm⟩

/-- A workspace with the notes, whose views live for sixty milliseconds. -/
def noteStart : Workspace where
  settings := .empty
  ttl := fun _ => 60
  disk := Definition.noteDisk
  corpora := [(Definition.noteCorpus, ⟨[]⟩)]
  cache := .empty
  made := 0
  now := 0

/-- A session in which a view is shown, and time passes. -/
def noteSession (milliseconds : Nat) : List Step :=
  [.materialize Definition.noteCorpus Definition.noteDefinition "v" true, .advance milliseconds]

theorem materialize_transparent_of_notes :
    ∃ rows,
      ((materialize Definition.noteCorpus Definition.noteDefinition "v" false).run
        (noteStart.afterAll (noteSession 59))).result = .ok ⟨0, rows⟩ ∧
      ((materialize Definition.noteCorpus Definition.noteDefinition "v" false).run
        (noteStart.afterAll (noteSession 60))).result ≠ .ok ⟨0, rows⟩ := by
  have hsucceeds : (match ((Definition.noteDefinition.rowsFrom Definition.noteCorpus
      ⟨Definition.noteDisk, 0, fun _ => 60⟩ Definition.noteView ⟨[["a.md"], ["b.md"]]⟩).run
      ⟨⟨[]⟩, .empty, 0⟩).result with
      | .ok _ => true
      | .error _ => false) = true := by
    decide +kernel
  rw [Definition.fresh_of_ok Definition.ofDisk_noteDisk] at hsucceeds
  cases hfresh : (Definition.noteDefinition.fresh Definition.noteCorpus Definition.noteDisk
      Definition.noteView).result with
  | error e =>
    rw [hfresh] at hsucceeds
    cases hsucceeds
  | ok rows =>
    have hcomputed : noteStart.computed? ⟨"notes", "v.base", "v"⟩
        (.materialize Definition.noteCorpus Definition.noteDefinition "v" true) =
        some ⟨0, rows⟩ :=
      (computed?_of_none rfl rfl).trans
        (congrArg (fun result => (result.map (Sheet.mk 0)).toOption) hfresh)
    have hlatest : ∀ milliseconds, noteStart.latest? ⟨"notes", "v.base", "v"⟩
        (noteSession milliseconds) = some ⟨⟨0, rows⟩, 0, false⟩ := by
      intro milliseconds
      simp only [latest?, latestFrom, noteSession, noted, hcomputed]
      rfl
    have hanswer := fun milliseconds => ((@materialize_transparent noteStart rfl
      (noteSession milliseconds) Definition.noteCorpus Definition.noteDefinition "v").1
      Definition.noteView _ rfl (hlatest milliseconds)).1
    exact ⟨rows, (hanswer 59).mpr rfl, fun h => Bool.false_ne_true ((hanswer 60).mp h)⟩

end CorpusQuery.Workspace
