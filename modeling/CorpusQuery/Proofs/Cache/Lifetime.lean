import CorpusQuery.Cache

/-!
# Live entries

A cache answers from its live entries only (`get_eq`). Entries do not come to life again, so a sweep
takes nothing away that could be answered later (`live?_prune`), and what is stored or removed under
one key leaves the live entries under all others as they are.
-/

namespace CorpusQuery.Cache

variable {α : Type} {c : Cache α} {ttl : String → Nat} {before now : Nat} {key other : CacheKey}

/-- The live entry under a key, if there is one. -/
def live? (c : Cache α) (ttl : String → Nat) (now : Nat) (key : CacheKey) :
    Option (CacheEntry α) :=
  c.entries.find? fun e => isLive ttl now e && e.key == key

theorem find?_filter (entries : List (CacheEntry α)) (p q : CacheEntry α → Bool) :
    (entries.filter p).find? q = entries.find? fun e => p e && q e := by
  simp only [List.find?_filter, Bool.decide_and, Bool.decide_eq_true]

theorem get_eq (c : Cache α) (ttl : String → Nat) (now : Nat) (key : CacheKey) :
    (c.get ttl now key).1 = (c.live? ttl now key).map CacheEntry.payload := by
  unfold live?
  rw [← find?_filter]
  rfl

/-- What is alive later was alive before. -/
theorem isLive_of_le (h : before ≤ now) {e : CacheEntry α} (hlive : isLive ttl now e = true) :
    isLive ttl before e = true := by
  unfold isLive at hlive ⊢
  rw [decide_eq_true_eq] at hlive ⊢
  omega

theorem live?_prune (h : before ≤ now) :
    (c.prune ttl before).live? ttl now key = c.live? ttl now key := by
  unfold live? prune
  rw [find?_filter]
  refine congrArg (fun p => c.entries.find? p) (funext fun e => ?_)
  cases hlive : isLive ttl now e with
  | false => rw [Bool.false_and, Bool.and_false]
  | true => rw [isLive_of_le h hlive, Bool.true_and]

/-- Storing sweeps, so that it does not matter whether the cache was swept just before. -/
theorem put_prune (a : α) : (c.prune ttl now).put ttl now key a = c.put ttl now key a := by
  unfold put prune
  simp only [List.filter_filter, Bool.and_self]

theorem live?_invalidate_self : (c.invalidate key).live? ttl now key = none := by
  unfold live? invalidate
  rw [find?_filter, List.find?_eq_none]
  intro e _
  simp only [Bool.and_eq_true, bne_iff_ne, beq_iff_eq, not_and]
  exact fun hne _ heq => hne heq

theorem live?_invalidate_of_ne (h : other ≠ key) :
    (c.invalidate other).live? ttl now key = c.live? ttl now key := by
  unfold live? invalidate
  rw [find?_filter]
  refine congrArg (fun p => c.entries.find? p) (funext fun e => ?_)
  by_cases hkey : e.key = key
  · rw [hkey, bne_iff_ne.mpr (Ne.symm h), Bool.true_and]
  · rw [beq_false_of_ne hkey, Bool.and_false, Bool.and_false]

/-- A stored entry is alive as long as its corpus says. -/
theorem live?_put_self (a : α) :
    (c.put ttl before key a).live? ttl now key =
      if now - before < ttl key.corpus then some ⟨key, a, before⟩ else none := by
  have hrest : ((c.prune ttl before).invalidate key).entries.find?
      (fun e => isLive ttl now e && e.key == key) = none := live?_invalidate_self
  unfold live? put
  rw [List.find?_cons]
  simp only [isLive, beq_self_eq_true, Bool.and_true]
  split
  · next h => rw [if_pos (of_decide_eq_true h)]
  · next h =>
    rw [if_neg (of_decide_eq_false h)]
    exact hrest

theorem live?_put_of_ne (hne : other ≠ key) (h : before ≤ now) (a : α) :
    (c.put ttl before other a).live? ttl now key = c.live? ttl now key := by
  have hrest : ((c.prune ttl before).invalidate other).live? ttl now key = c.live? ttl now key :=
    (live?_invalidate_of_ne hne).trans (live?_prune h)
  rw [← hrest]
  unfold live? put
  rw [List.find?_cons, beq_false_of_ne hne, Bool.and_false]

end CorpusQuery.Cache
