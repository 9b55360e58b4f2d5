import Overlay.Artifact
import Overlay.CacheKey
import Overlay.Store

/-! The cache of compiled shaders: a tier in memory over a store that outlives the program. Memory
is asked first, and what the store knows better is promoted into memory. An entry that is not fresh
is dropped from the tier it was found in and counts as missing, and so does one that cannot be read.
The store may fail at any call: then the cache remembers less, but it never answers anything wrong
and never fails itself. -/
namespace Overlay

/-- What the cache keeps and for how long. -/
structure CachePolicy where
  maxAge : Duration := ⟨7 * 24 * 60 * 60, 0⟩
  memoryCapacity : Nat := 50
  schemaVersion : UInt32 := 1
  deriving DecidableEq, Repr, Inhabited

structure CacheStats where
  memoryEntries : Nat
  persistentEntries : Nat
  persistentBytes : Nat
  deriving DecidableEq, Repr

structure EvictionReport where
  expiredPersistent : Nat
  trimmedMemory : Nat
  deriving DecidableEq, Repr

/-- A policy, the memory tier, and the store below it. -/
structure Cache (σ : Type) where
  policy : CachePolicy
  memory : Table String Artifact := ∅
  store : σ

namespace Cache
variable {σ : Type} [Store σ]

/-- Whether an artifact may be served for a fingerprint. -/
def isFresh (cache : Cache σ) (artifact : Artifact) (hash : String) (now : Millis) : Bool :=
  artifact.isValidFor hash cache.policy.schemaVersion now cache.policy.maxAge

/-- The entry that leaves memory first: the oldest, of equally old ones the one with the least key.
-/
def leavesBefore (one other : String × Artifact) : Bool :=
  decide (one.2.createdAt < other.2.createdAt) ||
    (one.2.createdAt == other.2.createdAt && decide (one.1 ≤ other.1))

def first? : List (String × Artifact) → Option (String × Artifact)
  | [] => none
  | entry :: rest =>
    match first? rest with
    | none => some entry
    | some other => if leavesBefore entry other then some entry else some other

/-- Removes as many entries as asked, the first to leave each time. -/
def dropOldest : Nat → Table String Artifact → Table String Artifact
  | 0, memory => memory
  | count + 1, memory =>
    match first? memory.entries with
    | none => memory
    | some entry => dropOldest count (memory.erase entry.1)

/-- Memory within its capacity, and how many entries that cost. -/
def trim (cache : Cache σ) : Nat × Cache σ :=
  let excess := cache.memory.size - cache.policy.memoryCapacity
  (excess, { cache with memory := dropOldest excess cache.memory })

/-- Deletes an entry of the store; a failure is put up with. -/
def dropPersistent (cache : Cache σ) (key : String) : Cache σ :=
  match Store.delete cache.store key with
  | .ok store => { cache with store }
  | .error _ => cache

/-- What the store knows under a key. -/
inductive Persisted where
  | missing
  | held (artifact : Artifact)
  | unreadable
  deriving DecidableEq, Repr

def persisted (cache : Cache σ) (key : String) : Persisted :=
  match Store.get cache.store key with
  | .error _ => .unreadable
  | .ok none => .missing
  | .ok (some bytes) =>
    match Artifact.decode? bytes with
    | some artifact => .held artifact
    | none => .unreadable

/-- Asks the store: a fresh entry is promoted into memory, any other is deleted. -/
def lookupPersistent (cache : Cache σ) (now : Millis) (hash key : String) :
    Option String × Cache σ :=
  match cache.persisted key with
  | .missing => (none, cache)
  | .unreadable => (none, cache.dropPersistent key)
  | .held artifact =>
    if cache.isFresh artifact hash now then
      (some artifact.compiledSource,
        (trim { cache with memory := cache.memory.insert key artifact }).2)
    else (none, cache.dropPersistent key)

/-- The compiled text recorded for a source, if it is fresh. -/
def lookup (cache : Cache σ) (now : Millis) (stage : Stage) (source : String) :
    Option String × Cache σ :=
  let hash := fingerprint source
  let key := keyFor stage hash
  match cache.memory.get? key with
  | none => cache.lookupPersistent now hash key
  | some artifact =>
    if cache.isFresh artifact hash now then (some artifact.compiledSource, cache)
    else { cache with memory := cache.memory.erase key }.lookupPersistent now hash key

/-- Writes an artifact to the store; a failure is put up with. -/
def persist (cache : Cache σ) (now : Millis) (key : String) (artifact : Artifact) : Cache σ :=
  match Store.put cache.store now key artifact.encode with
  | .ok store => { cache with store }
  | .error _ => cache

/-- Records what a source compiles to. The copy in memory is kept whether or not it can be written.
-/
def record (cache : Cache σ) (now : Millis) (stage : Stage) (source compiled : String) : Cache σ :=
  let hash := fingerprint source
  let key := keyFor stage hash
  let artifact : Artifact :=
    { compiledSource := compiled, sourceHash := hash, createdAt := now,
      version := cache.policy.schemaVersion }
  (trim ({ cache with memory := cache.memory.insert key artifact }.persist now key artifact)).2

/-- Whether an entry of the store has outlived the limit by its stamp. -/
def isExpired (cache : Cache σ) (now : Millis) (key : String) : Bool :=
  match Store.modified cache.store key with
  | .ok (some modified) => decide (cache.policy.maxAge.wholeMillis.toNat < ageAt now modified)
  | _ => false

/-- Deletes the expired ones of some entries and counts the deletions. -/
def expire (cache : Cache σ) (now : Millis) : List String → Nat × Cache σ
  | [] => (0, cache)
  | key :: rest =>
    if cache.isExpired now key then
      match Store.delete cache.store key with
      | .ok store =>
        let (count, cache) := { cache with store }.expire now rest
        (count + 1, cache)
      | .error _ => cache.expire now rest
    else cache.expire now rest

/-- The keys in the store, none when it cannot be listed. -/
def persistentKeys (cache : Cache σ) : List String :=
  match Store.keys cache.store with
  | .ok keys => keys
  | .error _ => []

/-- Deletes expired entries from the store and trims memory. -/
def evict (cache : Cache σ) (now : Millis) : EvictionReport × Cache σ :=
  let (expired, cache) := cache.expire now cache.persistentKeys
  let (trimmed, cache) := cache.trim
  (⟨expired, trimmed⟩, cache)

/-- A cache over a store: nothing in memory, and what has expired is deleted first. -/
def start (policy : CachePolicy) (store : σ) (now : Millis) : Cache σ :=
  (evict { policy, store } now).2

/-- Empties memory, and the store as far as it can be listed. -/
def clear (cache : Cache σ) : Cache σ :=
  cache.persistentKeys.foldl dropPersistent { cache with memory := ∅ }

def sizeOf (cache : Cache σ) (key : String) : Nat :=
  match Store.size cache.store key with
  | .ok (some size) => size
  | _ => 0

def stats (cache : Cache σ) : CacheStats :=
  let keys := cache.persistentKeys
  ⟨cache.memory.size, keys.length, (keys.map cache.sizeOf).foldr (· + ·) 0⟩

/-- Whether memory has an entry for a source. -/
def containsInMemory (cache : Cache σ) (stage : Stage) (source : String) : Bool :=
  cache.memory.contains (cacheKey stage source)

end Cache
end Overlay
