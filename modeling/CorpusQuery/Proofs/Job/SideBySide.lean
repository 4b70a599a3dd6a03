import CorpusQuery.Proofs.Job.Reports
import Mathlib.Data.List.Perm.Basic

/-!
# Tasks side by side

Several tasks are done at the same time. Each has a state of its own, and all of them report into
one sink, one event at a time, in an order that nobody can foresee. Only the sink is shared: the
disk and the index are read but not changed, so that a task does its work in one go and then has its
events left to report.

A turn of a worker moves an event at most from the worker to the sink (`Pool.turn_spec`). So
whatever the order of the turns, each task ends as it would on its own, and the sink receives the
events of the tasks interleaved (`run_sideBySide`); and each way to interleave them comes about in
some order (`exists_sideBySide`). Tasks that succeed do the same side by side and one after the
other, up to the order of what they report (`sideBySide_sameUpToOrder`).
-/

namespace CorpusQuery

/-- A list in which several lists are put together, each in its own order. -/
inductive Interleaving {ε : Type} : List (List ε) → List ε → Prop
  | done {lists : List (List ε)} (h : ∀ list ∈ lists, list = []) : Interleaving lists []
  | next {lists : List (List ε)} {position : Nat} {first : ε} {rest merged : List ε}
    (h : lists[position]? = some (first :: rest))
    (later : Interleaving (lists.set position rest) merged) : Interleaving lists (first :: merged)

namespace Interleaving

variable {ε : Type} {lists : List (List ε)} {merged : List ε}

theorem flatten_set {position : Nat} {first : ε} {rest : List ε}
    (h : lists[position]? = some (first :: rest)) :
    (first :: (lists.set position rest).flatten).Perm lists.flatten := by
  induction lists generalizing position with
  | nil => cases h
  | cons list lists ih =>
    cases position with
    | zero =>
      cases h
      exact .refl _
    | succ position =>
      have hrest : (first :: (lists.set position rest).flatten).Perm lists.flatten := ih h
      exact List.perm_middle.symm.trans (hrest.append_left list)

/-- Nothing is lost and nothing is added. -/
theorem perm (h : Interleaving lists merged) : merged.Perm lists.flatten := by
  induction h with
  | done h => rw [List.flatten_eq_nil_iff.mpr h]
  | next h _ ih => exact (ih.cons _).trans (flatten_set h)

/-- An empty list has no part in it. -/
theorem cons_nil (h : Interleaving lists merged) : Interleaving ([] :: lists) merged := by
  induction h with
  | done h =>
    refine .done fun list hlist => ?_
    rcases List.mem_cons.mp hlist with rfl | hlist
    · rfl
    · exact h list hlist
  | @next lists position first rest merged h _ ih =>
    exact @next _ (_ :: lists) (position + 1) first rest _ h ih

theorem cons_append (h : Interleaving lists merged) (list : List ε) :
    Interleaving (list :: lists) (list ++ merged) := by
  induction list with
  | nil => exact h.cons_nil
  | cons first rest ih => exact @next _ (_ :: lists) 0 first rest _ rfl ih

/-- One list after the other is one of the ways. -/
theorem flatten (lists : List (List ε)) : Interleaving lists lists.flatten := by
  induction lists with
  | nil => exact .done fun _ h => nomatch h
  | cons list lists ih => exact ih.cons_append list

end Interleaving

open Event

theorem Event.complaints_flatten {complains : Message → Bool} {lists : List (List Event)}
    (h : ∀ events ∈ lists, complaints complains events = []) :
    complaints complains lists.flatten = [] := by
  induction lists with
  | nil => rfl
  | cons events lists ih =>
    rw [List.flatten_cons, complaints_append, h events List.mem_cons_self,
      ih fun others hothers => h others (List.mem_cons_of_mem events hothers)]
    rfl

namespace Job

variable {σ τ α β : Type}

/-- A job, and the state of its own that it begins with. -/
structure Task (τ α : Type) where
  job : Job τ α
  start : τ

namespace Task

/-- What a task leaves behind. -/
def outcome (task : Task τ α) : Outcome τ α := task.job.run task.start

/-- The task as a job that is done beside the state at hand. -/
def alone (task : Task τ α) : Job σ (α × τ) := task.job.aside task.start

end Task

/-- A worker has its task before it, or has done it and reports. The events of the outcome are those
that are left. -/
inductive Worker (τ α : Type) where
  | waiting (task : Task τ α)
  | reporting (outcome : Outcome τ α)

namespace Worker

/-- What the worker still has to give. -/
def outcome : Worker τ α → Outcome τ α
  | .waiting task => task.outcome
  | .reporting outcome => outcome

/-- What the worker reports when it is its turn, and what becomes of it. -/
def turn : Worker τ α → List Event × Worker τ α
  | .waiting task => ([], .reporting task.outcome)
  | .reporting ⟨result, event :: left, state⟩ => ([event], .reporting ⟨result, left, state⟩)
  | .reporting ⟨result, [], state⟩ => ([], .reporting ⟨result, [], state⟩)

/-- A worker reports the first event that is left, or none. -/
theorem turn_spec (worker : Worker τ α) :
    worker.turn.2.outcome.result = worker.outcome.result ∧
      worker.turn.2.outcome.state = worker.outcome.state ∧
      worker.outcome.events = worker.turn.1 ++ worker.turn.2.outcome.events ∧
      (worker.turn.1 = [] ∨ ∃ event, worker.turn.1 = [event]) := by
  rcases worker with task | ⟨result, _ | ⟨event, left⟩, state⟩
  · exact ⟨rfl, rfl, rfl, .inl rfl⟩
  · exact ⟨rfl, rfl, rfl, .inl rfl⟩
  · exact ⟨rfl, rfl, rfl, .inr ⟨event, rfl⟩⟩

end Worker

/-- Workers, and the sink that they share. -/
structure Pool (τ α : Type) where
  workers : List (Worker τ α)
  sink : List Event

namespace Pool

/-- The pool after the turn of a worker. -/
def turn (pool : Pool τ α) (position : Nat) : Pool τ α :=
  match pool.workers[position]? with
  | some worker =>
    { workers := pool.workers.set position worker.turn.2, sink := pool.sink ++ worker.turn.1 }
  | none => pool

/-- The pool with a worker for each task. -/
def ofTasks (tasks : List (Task τ α)) : Pool τ α := ⟨tasks.map .waiting, []⟩

/-- The events that each worker has left to report. -/
def left (pool : Pool τ α) : List (List Event) :=
  pool.workers.map fun worker => worker.outcome.events

/-- What the sink has received when the workers have reported all that is left. -/
def received (pool : Pool τ α) : List Event := pool.sink ++ pool.left.flatten

/-- The results of the workers and their states, in the order of the workers; the first error if
there is one. -/
def collect : List (Worker τ α) → Except Error (List (α × τ))
  | [] => .ok []
  | worker :: workers =>
    worker.outcome.result.bind fun a =>
      (collect workers).map ((a, worker.outcome.state) :: ·)

/-! ## Turns -/

theorem collect_set {workers : List (Worker τ α)} {position : Nat} {worker next : Worker τ α}
    (h : workers[position]? = some worker) (hresult : next.outcome.result = worker.outcome.result)
    (hstate : next.outcome.state = worker.outcome.state) :
    collect (workers.set position next) = collect workers := by
  induction workers generalizing position with
  | nil => cases h
  | cons first rest ih =>
    cases position with
    | zero =>
      cases h
      simp only [List.set_cons_zero, collect, hresult, hstate]
    | succ position => simp only [List.set_cons_succ, collect, ih h]

theorem turn_eq {pool : Pool τ α} {position : Nat} {worker : Worker τ α}
    (h : pool.workers[position]? = some worker) :
    pool.turn position =
      ⟨pool.workers.set position worker.turn.2, pool.sink ++ worker.turn.1⟩ := by
  simp only [turn, h]

/-- A turn changes no result, and moves an event at most from a worker to the sink. -/
theorem turn_spec (pool : Pool τ α) (position : Nat) :
    collect (pool.turn position).workers = collect pool.workers ∧
      (((pool.turn position).sink = pool.sink ∧ (pool.turn position).left = pool.left) ∨
        ∃ event rest, (pool.turn position).sink = pool.sink ++ [event] ∧
          pool.left[position]? = some (event :: rest) ∧
          (pool.turn position).left = pool.left.set position rest) := by
  cases hworker : pool.workers[position]? with
  | none =>
    have hsame : pool.turn position = pool := by simp only [turn, hworker]
    rw [hsame]
    exact ⟨rfl, .inl ⟨rfl, rfl⟩⟩
  | some worker =>
    have hturn := turn_eq hworker
    have hleft : pool.left[position]? = some worker.outcome.events := by
      simp [left, hworker]
    have hafter : (pool.turn position).left =
        pool.left.set position worker.turn.2.outcome.events := by
      simp only [hturn, left, List.map_set]
    obtain ⟨hresult, hstate, hevents, hsaid⟩ := worker.turn_spec
    constructor
    · rw [hturn]
      exact collect_set hworker hresult hstate
    · rcases hsaid with hnone | ⟨event, hone⟩
      · rw [hnone, List.nil_append] at hevents
        obtain ⟨hlt, hget⟩ := List.getElem?_eq_some_iff.mp hleft
        refine .inl ⟨by rw [hturn, hnone, List.append_nil], ?_⟩
        rw [hafter, ← hevents, ← hget, List.set_getElem_self]
      · rw [hone, List.singleton_append] at hevents
        exact .inr ⟨event, _, by rw [hturn, hone], by rw [hleft, hevents], hafter⟩

/-- The same for a number of turns: in the end the sink has received, after what it had, all that
was left. -/
theorem turns_spec (order : List Nat) (pool : Pool τ α) :
    collect (order.foldl turn pool).workers = collect pool.workers ∧
      ∃ merged, Interleaving pool.left merged ∧
        (order.foldl turn pool).received = pool.sink ++ merged := by
  induction order generalizing pool with
  | nil => exact ⟨rfl, _, .flatten _, rfl⟩
  | cons position order ih =>
    obtain ⟨hcollect, hturn⟩ := pool.turn_spec position
    obtain ⟨hlater, merged, hmerged, hreceived⟩ := ih (pool.turn position)
    refine ⟨hlater.trans hcollect, ?_⟩
    rcases hturn with ⟨hsink, hleft⟩ | ⟨event, rest, hsink, hfirst, hleft⟩
    · exact ⟨merged, hleft ▸ hmerged, hreceived.trans (by rw [hsink])⟩
    · refine ⟨event :: merged, .next hfirst (hleft ▸ hmerged), hreceived.trans ?_⟩
      rw [hsink, List.append_assoc, List.singleton_append]

/-- A worker that is about to report an event needs one turn for it. -/
theorem turn_of_reporting {pool : Pool τ α} {position : Nat} {outcome : Outcome τ α}
    {event : Event} {rest : List Event}
    (h : pool.workers[position]? = some (.reporting outcome))
    (hevents : outcome.events = event :: rest) :
    (pool.turn position).sink = pool.sink ++ [event] ∧
      (pool.turn position).left = pool.left.set position rest := by
  rcases outcome with ⟨result, events, state⟩
  cases hevents
  rw [turn_eq h]
  exact ⟨rfl, List.map_set⟩

/-- A worker with an event left has reported it after a turn or two. -/
theorem exists_turns {pool : Pool τ α} {position : Nat} {event : Event} {rest : List Event}
    (h : pool.left[position]? = some (event :: rest)) :
    ∃ turns : List Nat, (turns.foldl turn pool).sink = pool.sink ++ [event] ∧
      (turns.foldl turn pool).left = pool.left.set position rest := by
  simp only [left, List.getElem?_map, Option.map_eq_some_iff] at h
  obtain ⟨worker, hworker, hevents⟩ := h
  cases worker with
  | reporting outcome => exact ⟨[position], turn_of_reporting hworker hevents⟩
  | waiting task =>
    -- The first turn does the task, the second one reports.
    have hturn := turn_eq hworker
    have hnext : (pool.turn position).workers[position]? = some (.reporting task.outcome) := by
      rw [hturn]
      exact List.getElem?_set_self (List.getElem?_eq_some_iff.mp hworker).1
    obtain ⟨hsink, hleft⟩ := turn_of_reporting hnext hevents
    refine ⟨[position, position], hsink.trans ?_, hleft.trans ?_⟩
    · rw [hturn]
      exact congrArg (· ++ [event]) (List.append_nil _)
    · rw [hturn]
      simp only [left, List.map_set, List.set_set]

/-- Each way to interleave what is left comes about in some order of turns. -/
theorem exists_order {pool : Pool τ α} {merged : List Event}
    (h : Interleaving pool.left merged) :
    ∃ order : List Nat, (order.foldl turn pool).received = pool.sink ++ merged := by
  generalize hlists : pool.left = lists at h
  induction h generalizing pool with
  | done h =>
    refine ⟨[], ?_⟩
    rw [List.foldl_nil, received, hlists, List.flatten_eq_nil_iff.mpr h]
  | next h _ ih =>
    obtain ⟨turns, hsink, hleft⟩ := exists_turns (hlists ▸ h)
    obtain ⟨order, horder⟩ := @ih (turns.foldl turn pool) (hleft.trans (hlists ▸ rfl))
    refine ⟨turns ++ order, ?_⟩
    rw [List.foldl_append, horder, hsink, List.append_assoc, List.singleton_append]

end Pool

/-! ## Jobs of tasks -/

/-- Does tasks side by side, with the workers taking turns in the given order and, in the end, each
reporting what it has left. -/
def sideBySide (order : List Nat) (tasks : List (Task τ α)) : Job σ (List (α × τ)) := fun s =>
  let pool := order.foldl Pool.turn (.ofTasks tasks)
  ⟨Pool.collect pool.workers, pool.received, s⟩

theorem left_ofTasks (tasks : List (Task τ α)) :
    (Pool.ofTasks tasks).left = tasks.map fun task => task.outcome.events := by
  simp only [Pool.ofTasks, Pool.left, List.map_map]
  rfl

/-- Each task ends as it would on its own, whatever the order, and the events are interleaved. -/
theorem run_sideBySide (order : List Nat) (tasks : List (Task τ α)) (s : σ) :
    ∃ merged, Interleaving (tasks.map fun task => task.outcome.events) merged ∧
      (sideBySide order tasks).run s =
        ⟨Pool.collect (tasks.map .waiting), merged, s⟩ := by
  obtain ⟨hcollect, merged, hmerged, hreceived⟩ := Pool.turns_spec order (.ofTasks tasks)
  refine ⟨merged, left_ofTasks tasks ▸ hmerged, ?_⟩
  change (⟨_, _, s⟩ : Outcome σ (List (α × τ))) = _
  rw [hcollect, hreceived]
  rfl

/-- All interleavings of the events come about. -/
theorem exists_sideBySide {tasks : List (Task τ α)} {merged : List Event}
    (h : Interleaving (tasks.map fun task => task.outcome.events) merged) :
    ∃ order, ∀ s : σ, ((sideBySide order tasks).run s).events = merged :=
  (@Pool.exists_order _ _ (.ofTasks tasks) _ (left_ofTasks tasks ▸ h)).imp fun _ horder _ => horder

/-- Tasks one after the other, if all of them succeed. -/
theorem run_mapM_alone {tasks : List (Task τ α)}
    (h : ∀ task ∈ tasks, ∃ a, task.outcome.result = .ok a) (s : σ) :
    (tasks.mapM Task.alone).run s =
      ⟨Pool.collect (tasks.map .waiting), (tasks.map fun task => task.outcome.events).flatten,
        s⟩ := by
  induction tasks with
  | nil => rfl
  | cons task tasks ih =>
    obtain ⟨a, ha⟩ := h task List.mem_cons_self
    have halone : (task.alone : Job σ (α × τ)).run s =
        ⟨.ok (a, task.outcome.state), task.outcome.events, s⟩ := by
      rw [Task.alone, run_aside]
      change (⟨task.outcome.result.map _, _, s⟩ : Outcome σ (α × τ)) = _
      rw [ha]
      rfl
    rw [List.mapM_cons, run_bind_of_ok (by rw [halone]), run_bind_pure, halone,
      ih fun other hother => h other (List.mem_cons_of_mem task hother)]
    simp only [List.map_cons, Pool.collect, Worker.outcome, ha, Except.bind, List.flatten_cons]

end Job

/-! ## The same up to order -/

/-- Two runs that give the same, leave the same behind and report the same, though not in the same
order; complaints are in the same order. -/
structure Outcome.SameUpToOrder {σ α : Type} (complains : Message → Bool)
    (first second : Outcome σ α) : Prop where
  result_eq : first.result = second.result
  state_eq : first.state = second.state
  events_perm : first.events.Perm second.events
  complaints_eq : complaints complains first.events = complaints complains second.events

theorem Outcome.SameUpToOrder.messages_perm {σ α : Type} {complains : Message → Bool}
    {first second : Outcome σ α} (h : SameUpToOrder complains first second) :
    (messages first.events).Perm (messages second.events) := h.events_perm.filterMap _

namespace Job

variable {σ τ α β : Type} {complains : Message → Bool}

/-- Two jobs whose runs are the same up to order from every state. -/
def SameUpToOrder (complains : Message → Bool) (first second : Job σ α) : Prop :=
  ∀ s, Outcome.SameUpToOrder complains (first.run s) (second.run s)

theorem SameUpToOrder.refl (job : Job σ α) : SameUpToOrder complains job job :=
  fun _ => ⟨rfl, rfl, .refl _, rfl⟩

theorem SameUpToOrder.bind {first second : Job σ α} {next other : α → Job σ β}
    (h : SameUpToOrder complains first second)
    (hnext : ∀ a, SameUpToOrder complains (next a) (other a)) :
    SameUpToOrder complains (first >>= next) (second >>= other) := by
  intro s
  obtain ⟨hresult, hstate, hperm, hcomplaints⟩ := h s
  cases ha : (second.run s).result with
  | error e =>
    rw [run_bind_of_error ha, run_bind_of_error (hresult.trans ha)]
    exact ⟨rfl, hstate, hperm, hcomplaints⟩
  | ok a =>
    rw [run_bind_of_ok ha, run_bind_of_ok (hresult.trans ha), hstate]
    obtain ⟨hresult', hstate', hperm', hcomplaints'⟩ := hnext a (second.run s).state
    refine ⟨hresult', hstate', hperm.append hperm', ?_⟩
    rw [complaints_append, complaints_append, hcomplaints, hcomplaints']

/-- Tasks that succeed and have nothing to complain about do the same side by side as they do one
after the other. -/
theorem sideBySide_sameUpToOrder (order : List Nat) {tasks : List (Task τ α)}
    (hsucceeds : ∀ task ∈ tasks, ∃ a, task.outcome.result = .ok a)
    (hquiet : ∀ task ∈ tasks, complaints complains task.outcome.events = []) :
    SameUpToOrder complains (sideBySide order tasks : Job σ _) (tasks.mapM Task.alone) := by
  intro s
  obtain ⟨merged, hmerged, hrun⟩ := run_sideBySide order tasks s
  rw [hrun, run_mapM_alone hsucceeds]
  refine ⟨rfl, rfl, hmerged.perm, ?_⟩
  have hnone : complaints complains (tasks.map fun task => task.outcome.events).flatten = [] := by
    refine complaints_flatten fun events hevents => ?_
    obtain ⟨task, htask, rfl⟩ := List.mem_map.mp hevents
    exact hquiet task htask
  have hperm : (complaints complains merged).Perm [] :=
    hnone ▸ (hmerged.perm.filterMap _).filter _
  rw [hnone, hperm.eq_nil]

end Job

end CorpusQuery
