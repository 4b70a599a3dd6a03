/-!
# Timed caches

A cache of results under keys of a corpus, a definition and a view. An entry lives as long as the
corpus of its key says, counted from when it was stored. Entries that have outlived that are swept
on every read and write. Times are in milliseconds.
-/

namespace CorpusQuery

/-- A view of a definition in a corpus. -/
structure CacheKey where
  corpus : String
  definition : String
  view : String
  deriving Repr, DecidableEq

/-- A stored result and when it was stored. -/
structure CacheEntry (α : Type) where
  key : CacheKey
  payload : α
  storedAt : Nat

/-- The entries of a cache, each key once. -/
structure Cache (α : Type) where
  entries : List (CacheEntry α)

namespace Cache

variable {α : Type}

/-- The cache without entries. -/
def empty : Cache α := ⟨[]⟩

/-- The number of entries, alive or not. -/
def size (c : Cache α) : Nat := c.entries.length

/-- Whether an entry is alive at time `now`. -/
def isLive (ttl : String → Nat) (now : Nat) (e : CacheEntry α) : Bool :=
  now - e.storedAt < ttl e.key.corpus

/-- Sweeps the entries that are not alive. -/
def prune (ttl : String → Nat) (now : Nat) (c : Cache α) : Cache α :=
  ⟨c.entries.filter (isLive ttl now)⟩

/-- Removes the entry under a key. -/
def invalidate (key : CacheKey) (c : Cache α) : Cache α :=
  ⟨c.entries.filter fun e => e.key != key⟩

/-- What is stored under a key. -/
def find? (key : CacheKey) (c : Cache α) : Option α :=
  (c.entries.find? fun e => e.key == key).map (·.payload)

/-- Sweeps the cache, and reads what is then stored under a key. -/
def get (ttl : String → Nat) (now : Nat) (key : CacheKey) (c : Cache α) : Option α × Cache α :=
  let c := c.prune ttl now
  (c.find? key, c)

/-- Sweeps the cache, and stores a result in place of what was under its key. -/
def put (ttl : String → Nat) (now : Nat) (key : CacheKey) (payload : α) (c : Cache α) : Cache α :=
  ⟨⟨key, payload, now⟩ :: ((c.prune ttl now).invalidate key).entries⟩

end Cache

end CorpusQuery
