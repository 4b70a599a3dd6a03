import CorpusQuery.Proofs.Cache.Lifetime
import Mathlib.Data.Set.Card

/-!
# Histories of caches

A history lists what was done with a cache from the time when it was empty. What the cache answers
can be read off the history, without the entries and the sweeps that took some of them out: a key
has the result that was stored under it last, unless the key was invalidated since or the lifetime
is over (`answers_follow_history`). The entries that are alive are tied to the history one act at a
time (`Traces.after`).
-/

namespace CorpusQuery.Cache

variable {α : Type}

/-! ## Acts -/

/-- What can be done with a cache, and that time passes. -/
inductive Act (α : Type)
  | put (key : CacheKey) (payload : α)
  | get (key : CacheKey)
  | prune
  | invalidate (key : CacheKey)
  | advance (milliseconds : Nat)

namespace Act

/-- How much time passes. -/
def duration : Act α → Nat
  | .advance milliseconds => milliseconds
  | _ => 0

/-- Whether an act stores something under a key or invalidates it. -/
def overrides (key : CacheKey) : Act α → Bool
  | .put other _ => other == key
  | .invalidate other => other == key
  | _ => false

end Act

/-- A cache and the time. -/
structure Clocked (α : Type) where
  cache : Cache α
  now : Nat

namespace Clocked

variable (ttl : String → Nat)

def after (c : Clocked α) : Act α → Clocked α
  | .put key payload => { c with cache := c.cache.put ttl c.now key payload }
  | .get key => { c with cache := (c.cache.get ttl c.now key).2 }
  | .prune => { c with cache := c.cache.prune ttl c.now }
  | .invalidate key => { c with cache := c.cache.invalidate key }
  | .advance milliseconds => { c with now := c.now + milliseconds }

/-- The empty cache after a history. -/
def afterAll (acts : List (Act α)) : Clocked α := acts.foldl (after ttl) ⟨.empty, 0⟩

/-- What is answered under a key. -/
def answer (c : Clocked α) (key : CacheKey) : Option α := (c.cache.get ttl c.now key).1

end Clocked

/-! ## What a history says -/

/-- The time after a history. -/
def clock (acts : List (Act α)) : Nat := (acts.map Act.duration).sum

/-- The result that a history has under a key: it was stored, later acts neither stored another one
nor invalidated the key, and less than a lifetime has passed. -/
def Holds (ttl : String → Nat) (acts : List (Act α)) (key : CacheKey) (payload : α) : Prop :=
  ∃ earlier later, acts = earlier ++ .put key payload :: later ∧
    (∀ act ∈ later, act.overrides key = false) ∧
    clock acts - clock earlier < ttl key.corpus

def liveKeys (ttl : String → Nat) (acts : List (Act α)) : Set CacheKey :=
  {key | ∃ payload, Holds ttl acts key payload}

/-- An entry that a history has stored and not overridden, alive or not. -/
def StoredIn (acts : List (Act α)) (e : CacheEntry α) : Prop :=
  ∃ earlier later, acts = earlier ++ .put e.key e.payload :: later ∧
    (∀ act ∈ later, act.overrides e.key = false) ∧ clock earlier = e.storedAt

section

variable {ttl : String → Nat} {acts : List (Act α)} {act : Act α} {key : CacheKey} {payload : α}
  {e : CacheEntry α}

theorem clock_concat (acts : List (Act α)) (act : Act α) :
    clock (acts ++ [act]) = clock acts + act.duration := by
  simp [clock]

theorem holds_iff :
    Holds ttl acts key payload ↔
      ∃ time, StoredIn acts ⟨key, payload, time⟩ ∧
        isLive ttl (clock acts) ⟨key, payload, time⟩ = true := by
  simp only [isLive, decide_eq_true_eq]
  constructor
  · rintro ⟨earlier, later, hacts, hlater, hlive⟩
    exact ⟨clock earlier, ⟨earlier, later, hacts, hlater, rfl⟩, hlive⟩
  · rintro ⟨time, ⟨earlier, later, hacts, hlater, rfl⟩, hlive⟩
    exact ⟨earlier, later, hacts, hlater, hlive⟩

/-- The last act of a history stores an entry, or it leaves stored what was stored before. -/
theorem storedIn_concat :
    StoredIn (acts ++ [act]) e ↔
      (act = .put e.key e.payload ∧ clock acts = e.storedAt) ∨
      (act.overrides e.key = false ∧ StoredIn acts e) := by
  constructor
  · rintro ⟨earlier, later, hacts, hlater, htime⟩
    rcases List.eq_nil_or_concat later with rfl | ⟨later, last, rfl⟩
    · obtain ⟨rfl, hact⟩ := List.append_inj' hacts rfl
      exact .inl ⟨List.singleton_inj.mp hact, htime⟩
    · rw [List.concat_eq_append, ← List.cons_append, ← List.append_assoc] at hacts
      obtain ⟨rfl, hact⟩ := List.append_inj' hacts rfl
      obtain rfl := List.singleton_inj.mp hact
      refine .inr ⟨hlater act (by simp), earlier, later, rfl, fun other hother => ?_, htime⟩
      exact hlater other (by simp [hother])
  · rintro (⟨rfl, htime⟩ | ⟨hkept, earlier, later, rfl, hlater, htime⟩)
    · exact ⟨acts, [], rfl, by simp, htime⟩
    · refine ⟨earlier, later ++ [act], by simp, fun other hother => ?_, htime⟩
      rcases List.mem_append.mp hother with hother | hother
      · exact hlater other hother
      · obtain rfl := List.mem_singleton.mp hother
        exact hkept

/-- A sweep in a history leaves no trace. -/
theorem storedIn_prune (acts later : List (Act α)) (e : CacheEntry α) :
    StoredIn (acts ++ .prune :: later) e ↔ StoredIn (acts ++ later) e := by
  induction later using List.reverseRecOn with
  | nil =>
    rw [List.append_nil, storedIn_concat]
    simp [Act.overrides]
  | append_singleton later act ih =>
    have hclock : clock (acts ++ .prune :: later) = clock (acts ++ later) := by
      simp [clock, Act.duration]
    rw [← List.cons_append, ← List.append_assoc, ← List.append_assoc, storedIn_concat,
      storedIn_concat, ih, hclock]

/-! ## Entries -/

variable {c : Cache α} {now : Nat}

theorem mem_prune : e ∈ (c.prune ttl now).entries ↔ e ∈ c.entries ∧ isLive ttl now e = true := by
  simp [prune]

theorem mem_invalidate : e ∈ (c.invalidate key).entries ↔ e ∈ c.entries ∧ e.key ≠ key := by
  simp [invalidate]

theorem mem_put :
    e ∈ (c.put ttl now key payload).entries ↔
      e = ⟨key, payload, now⟩ ∨ (e ∈ c.entries ∧ isLive ttl now e = true) ∧ e.key ≠ key := by
  simp only [put, List.mem_cons, mem_invalidate, mem_prune]

/-- No key has two entries. -/
def Distinct (c : Cache α) : Prop := (c.entries.map CacheEntry.key).Nodup

theorem Distinct.filter (h : c.Distinct) (p : CacheEntry α → Bool) :
    Distinct ⟨c.entries.filter p⟩ :=
  (List.filter_sublist.map _).nodup h

theorem Distinct.put (h : c.Distinct) : (c.put ttl now key payload).Distinct := by
  have hrest : ((c.prune ttl now).invalidate key).Distinct := (h.filter _).filter _
  refine List.nodup_cons.mpr ⟨fun hmem => ?_, hrest⟩
  obtain ⟨e, he, hkey⟩ := List.mem_map.mp hmem
  exact (mem_invalidate.mp he).2 hkey

theorem Distinct.live?_eq_some_iff (h : c.Distinct) :
    c.live? ttl now key = some e ↔ e ∈ c.entries ∧ isLive ttl now e = true ∧ e.key = key := by
  constructor
  · intro hfind
    have hcond := List.find?_some hfind
    rw [Bool.and_eq_true, beq_iff_eq] at hcond
    exact ⟨List.mem_of_find?_eq_some hfind, hcond⟩
  · rintro ⟨hmem, hlive, hkey⟩
    have hsome : (c.live? ttl now key).isSome :=
      List.find?_isSome.mpr ⟨e, hmem, by rw [hlive, hkey, beq_self_eq_true, Bool.true_and]⟩
    obtain ⟨other, hother⟩ := Option.isSome_iff_exists.mp hsome
    have hcond := List.find?_some hother
    rw [Bool.and_eq_true, beq_iff_eq] at hcond
    rw [hother, List.inj_on_of_nodup_map h (List.mem_of_find?_eq_some hother) hmem
      (hcond.2.trans hkey.symm)]

/-! ## The cache and its history -/

/-- The live entries of a cache are those that its history has stored. -/
structure Traces (ttl : String → Nat) (acts : List (Act α)) (c : Clocked α) : Prop where
  now_eq : c.now = clock acts
  distinct : c.cache.Distinct
  mem_iff : ∀ e, isLive ttl c.now e = true → (e ∈ c.cache.entries ↔ StoredIn acts e)

theorem traces_empty : Traces ttl [] (⟨.empty, 0⟩ : Clocked α) where
  now_eq := rfl
  distinct := List.nodup_nil
  mem_iff e _ := by
    refine ⟨nofun, ?_⟩
    rintro ⟨earlier, later, hacts, -⟩
    simp at hacts

/-- Reading and pruning sweep the cache and do nothing else. -/
theorem Traces.sweep {c : Clocked α} (h : Traces ttl acts c) (htime : act.duration = 0)
    (hkeeps : ∀ key, act.overrides key = false) :
    Traces ttl (acts ++ [act]) { c with cache := c.cache.prune ttl c.now } := by
  refine ⟨by rw [clock_concat, htime]; exact h.now_eq, h.distinct.filter _, fun e hlive => ?_⟩
  have hstores : act ≠ .put e.key e.payload := by
    rintro rfl
    simpa [Act.overrides] using hkeeps e.key
  have hlive : isLive ttl c.now e = true := hlive
  rw [storedIn_concat, mem_prune, h.mem_iff e hlive]
  simp [hstores, hkeeps, hlive]

theorem Traces.after {c : Clocked α} (h : Traces ttl acts c) (act : Act α) :
    Traces ttl (acts ++ [act]) (c.after ttl act) := by
  have hnow : c.now = clock acts := h.now_eq
  cases act with
  | put key payload =>
    refine ⟨by rw [clock_concat]; exact hnow, h.distinct.put, fun e hlive => ?_⟩
    have hlive : isLive ttl c.now e = true := hlive
    have hmem := h.mem_iff e hlive
    obtain ⟨name, result, time⟩ := e
    rw [storedIn_concat, Clocked.after, mem_put, hmem]
    by_cases hkey : key = name
    · simp only [Act.overrides, hkey, hnow, CacheEntry.mk.injEq, Act.put.injEq, beq_self_eq_true]
      tauto
    · simp [Act.overrides, hkey, hlive, Ne.symm hkey]
  | get key => exact h.sweep rfl fun _ => rfl
  | prune => exact h.sweep rfl fun _ => rfl
  | invalidate key =>
    refine ⟨by rw [clock_concat]; exact hnow, h.distinct.filter _, fun e hlive => ?_⟩
    have hmem : e ∈ (c.cache.invalidate key).entries ↔ e ∈ c.cache.entries ∧ e.key ≠ key :=
      mem_invalidate
    rw [storedIn_concat, ← h.mem_iff e hlive]
    simp only [Act.overrides, reduceCtorEq, false_and, false_or, beq_eq_false_iff_ne]
    tauto
  -- Time passes: what is alive now was alive before, so the entries need no second look.
  | advance milliseconds =>
    refine ⟨by rw [clock_concat, ← hnow]; rfl, h.distinct, fun e hlive => ?_⟩
    have hbefore : isLive ttl c.now e = true :=
      isLive_of_le (Nat.le_add_right c.now milliseconds) hlive
    rw [storedIn_concat, ← h.mem_iff e hbefore]
    simp [Act.overrides, Clocked.after]

theorem afterAll_concat (acts : List (Act α)) (act : Act α) :
    Clocked.afterAll ttl (acts ++ [act]) = (Clocked.afterAll ttl acts).after ttl act :=
  List.foldl_concat _ _ _ _

theorem traces_afterAll (ttl : String → Nat) (acts : List (Act α)) :
    Traces ttl acts (Clocked.afterAll ttl acts) := by
  induction acts using List.reverseRecOn with
  | nil => exact traces_empty
  | append_singleton acts act ih =>
    rw [afterAll_concat]
    exact ih.after act

theorem Traces.live?_eq_some_iff {c : Clocked α} (h : Traces ttl acts c) :
    c.cache.live? ttl c.now key = some e ↔
      StoredIn acts e ∧ isLive ttl (clock acts) e = true ∧ e.key = key := by
  rw [h.distinct.live?_eq_some_iff, ← h.now_eq]
  constructor
  · rintro ⟨hmem, hlive, hkey⟩
    exact ⟨(h.mem_iff e hlive).mp hmem, hlive, hkey⟩
  · rintro ⟨hstored, hlive, hkey⟩
    exact ⟨(h.mem_iff e hlive).mpr hstored, hlive, hkey⟩

theorem Traces.answer_eq_some_iff {c : Clocked α} (h : Traces ttl acts c) :
    c.answer ttl key = some payload ↔ Holds ttl acts key payload := by
  rw [Clocked.answer, get_eq, Option.map_eq_some_iff, holds_iff]
  constructor
  · rintro ⟨⟨name, result, time⟩, hfound, rfl⟩
    obtain ⟨hstored, hlive, rfl⟩ := h.live?_eq_some_iff.mp hfound
    exact ⟨time, hstored, hlive⟩
  · rintro ⟨time, hstored, hlive⟩
    exact ⟨⟨key, payload, time⟩, h.live?_eq_some_iff.mpr ⟨hstored, hlive, rfl⟩, rfl⟩

/-- A cache whose entries are all alive has one for each live key. -/
theorem Traces.size_eq {c : Clocked α} (h : Traces ttl acts c)
    (hlive : ∀ e ∈ c.cache.entries, isLive ttl c.now e = true) :
    (c.cache.size : ℕ∞) = (liveKeys ttl acts).encard := by
  have hkeys : liveKeys ttl acts = ((c.cache.entries.map CacheEntry.key).toFinset : Set _) := by
    ext key
    simp only [liveKeys, Set.mem_ofPred_eq, ← h.answer_eq_some_iff, Clocked.answer, get_eq,
      Option.map_eq_some_iff, List.coe_toFinset, List.mem_map, h.distinct.live?_eq_some_iff]
    constructor
    · rintro ⟨payload, e, ⟨hmem, -, hkey⟩, -⟩
      exact ⟨e, hmem, hkey⟩
    · rintro ⟨e, hmem, hkey⟩
      exact ⟨e.payload, e, ⟨hmem, hlive e hmem, hkey⟩, rfl⟩
  rw [hkeys, Set.encard_coe_eq_coe_finsetCard, List.toFinset_card_of_nodup h.distinct,
    List.length_map, size]

theorem holds_prune (acts later : List (Act α)) :
    Holds ttl (acts ++ .prune :: later) key payload ↔ Holds ttl (acts ++ later) key payload := by
  have hclock : clock (acts ++ .prune :: later) = clock (acts ++ later) := by
    simp [clock, Act.duration]
  simp only [holds_iff, storedIn_prune, hclock]

theorem answer_prune (acts later : List (Act α)) :
    (Clocked.afterAll ttl (acts ++ .prune :: later)).answer ttl key =
      (Clocked.afterAll ttl (acts ++ later)).answer ttl key := by
  refine Option.ext fun payload => ?_
  rw [(traces_afterAll ttl _).answer_eq_some_iff, (traces_afterAll ttl _).answer_eq_some_iff,
    holds_prune]

end

/-- After any history, a key is answered with the result that the history has under it, and else
with nothing. Right after a sweep, by a reading or of its own, there is one entry for each key that
has a result; the sweep leaves all of them in place, and whether it was made cannot be told from any
later answer. -/
theorem answers_follow_history (ttl : String → Nat) (acts : List (Act α)) :
    let c := Clocked.afterAll ttl acts
    (∀ key payload, (c.cache.get ttl c.now key).1 = some payload ↔ Holds ttl acts key payload) ∧
    (∀ key, ((Clocked.afterAll ttl (acts ++ [.get key])).cache.size : ℕ∞) =
      (liveKeys ttl (acts ++ [.get key])).encard) ∧
    ((Clocked.afterAll ttl (acts ++ [.prune])).cache.size : ℕ∞) =
      (liveKeys ttl (acts ++ [.prune])).encard ∧
    (∀ key payload,
      (c.cache.prune ttl c.now).find? key = some payload ↔ Holds ttl acts key payload) ∧
    ∀ later key, (Clocked.afterAll ttl (acts ++ .prune :: later)).answer ttl key =
      (Clocked.afterAll ttl (acts ++ later)).answer ttl key := by
  intro c
  have hc : Traces ttl acts c := traces_afterAll ttl acts
  have hswept : ∀ act, (c.after ttl act).cache = c.cache.prune ttl c.now →
      (c.after ttl act).now = c.now →
      ((Clocked.afterAll ttl (acts ++ [act])).cache.size : ℕ∞) =
        (liveKeys ttl (acts ++ [act])).encard := by
    intro act hcache hnow
    rw [afterAll_concat]
    refine (hc.after act).size_eq fun e he => ?_
    rw [hcache] at he
    rw [hnow]
    exact (mem_prune.mp he).2
  refine ⟨fun key payload => hc.answer_eq_some_iff, fun key => hswept _ rfl rfl,
    hswept _ rfl rfl, fun key payload => ?_, fun later key => answer_prune acts later⟩
  exact hc.answer_eq_some_iff

end CorpusQuery.Cache
