import Overlay.Cache
import Overlay.Proofs.Table

/-! What each operation of a cache does to its two tiers. Memory only ever loses entries or gains
the one that was recorded or promoted, and the store loses entries or gains the one that was
recorded, so whatever is known of every entry in both tiers is known of them afterwards too. A
lookup has one of four outcomes, and every later argument about it goes through these. -/
namespace Overlay.Cache
variable {σ : Type}

/-- Freshness is agreement of schema and fingerprint, and an age within the limit. -/
theorem isFresh_iff {cache : Cache σ} {artifact : Artifact} {hash : String} {now : Millis} :
    cache.isFresh artifact hash now = true ↔
      artifact.version = cache.policy.schemaVersion ∧ artifact.sourceHash = hash ∧
        ageAt now artifact.createdAt ≤ cache.policy.maxAge.wholeMillis.toNat := by
  simp only [isFresh, Artifact.isValidFor, Bool.and_eq_true, beq_iff_eq, decide_eq_true_eq,
    and_assoc]

/-! ### Trimming -/

/-- Departures add nothing to memory. -/
theorem dropOldest_found {count : Nat} {memory : Table String Artifact} {key : String}
    {artifact : Artifact} (found : (dropOldest count memory).get? key = some artifact) :
    memory.get? key = some artifact := by
  induction count generalizing memory with
  | zero => exact found
  | succ count ih =>
    simp only [dropOldest] at found
    split at found
    · exact found
    · exact (Table.get?_of_get?_erase (ih found)).2

/-- Trimming adds nothing to memory. -/
theorem trim_found {cache : Cache σ} {key : String} {artifact : Artifact}
    (found : cache.trim.2.memory.get? key = some artifact) :
    cache.memory.get? key = some artifact :=
  dropOldest_found found

@[simp] theorem trim_store (cache : Cache σ) : cache.trim.2.store = cache.store := rfl

/-! ### The store -/

variable [Store σ]

/-- Forgets what memory knows under a key. -/
def forget (cache : Cache σ) (key : String) : Cache σ :=
  { cache with memory := cache.memory.erase key }

/-- Puts an artifact into memory and trims it. -/
def promote (cache : Cache σ) (key : String) (artifact : Artifact) : Cache σ :=
  (trim { cache with memory := cache.memory.insert key artifact }).2

/-- Deleting an entry changes the store alone. -/
theorem dropPersistent_eq (cache : Cache σ) (key : String) :
    cache.dropPersistent key = { cache with store := (cache.dropPersistent key).store } := by
  unfold dropPersistent
  split <;> rfl

@[simp] theorem dropPersistent_memory (cache : Cache σ) (key : String) :
    (cache.dropPersistent key).memory = cache.memory := by
  rw [dropPersistent_eq]

@[simp] theorem dropPersistent_policy (cache : Cache σ) (key : String) :
    (cache.dropPersistent key).policy = cache.policy := by
  rw [dropPersistent_eq]

/-- Writing an entry changes the store alone. -/
theorem persist_eq (cache : Cache σ) (now : Millis) (key : String) (artifact : Artifact) :
    cache.persist now key artifact =
      { cache with store := (cache.persist now key artifact).store } := by
  unfold persist
  split <;> rfl

@[simp] theorem persist_memory (cache : Cache σ) (now : Millis) (key : String)
    (artifact : Artifact) : (cache.persist now key artifact).memory = cache.memory := by
  rw [persist_eq]

@[simp] theorem persist_policy (cache : Cache σ) (now : Millis) (key : String)
    (artifact : Artifact) : (cache.persist now key artifact).policy = cache.policy := by
  rw [persist_eq]

/-- Deleting what has expired changes the store alone. -/
theorem expire_eq (cache : Cache σ) (now : Millis) (keys : List String) :
    (cache.expire now keys).2 = { cache with store := (cache.expire now keys).2.store } := by
  induction keys generalizing cache with
  | nil => rfl
  | cons key keys ih =>
    simp only [expire]
    split
    · split
      · exact ih _
      · exact ih _
    · exact ih _

@[simp] theorem expire_memory (cache : Cache σ) (now : Millis) (keys : List String) :
    (cache.expire now keys).2.memory = cache.memory := by
  rw [expire_eq]

@[simp] theorem expire_policy (cache : Cache σ) (now : Millis) (keys : List String) :
    (cache.expire now keys).2.policy = cache.policy := by
  rw [expire_eq]

@[simp] theorem evict_policy (cache : Cache σ) (now : Millis) :
    (cache.evict now).2.policy = cache.policy :=
  expire_policy cache now _

@[simp] theorem evict_store (cache : Cache σ) (now : Millis) :
    (cache.evict now).2.store = (cache.expire now cache.persistentKeys).2.store := rfl

/-- A cache that is opened has nothing in memory: what it finds in the store it only deletes. -/
@[simp] theorem start_memory (policy : CachePolicy) (store : σ) (now : Millis) :
    (start policy store now).memory = ∅ := by
  have bare : (expire { policy, store } now (persistentKeys { policy, store })).2.memory = ∅ :=
    expire_memory _ now _
  change dropOldest (Table.size _ - _) (Cache.memory _) = ∅
  rw [bare, show (∅ : Table String Artifact).size = 0 from rfl, Nat.zero_sub]
  rfl

private theorem dropAll_eq (keys : List String) (cache : Cache σ) :
    keys.foldl dropPersistent cache =
      { cache with store := (keys.foldl dropPersistent cache).store } := by
  induction keys generalizing cache with
  | nil => rfl
  | cons key keys ih =>
    rw [List.foldl_cons, ih, dropPersistent_memory, dropPersistent_policy]

/-- Clearing empties memory whatever the store does. -/
@[simp] theorem clear_memory (cache : Cache σ) : cache.clear.memory = ∅ := by
  rw [clear, dropAll_eq]

@[simp] theorem clear_policy (cache : Cache σ) : cache.clear.policy = cache.policy := by
  rw [clear, dropAll_eq]

/-- Where nothing is listed nothing is expired. -/
theorem start_store (policy : CachePolicy) {store : σ} (now : Millis)
    (bare : Store.keys store = .ok []) : (start policy store now).store = store := by
  rw [start, evict_store, persistentKeys, bare]
  rfl

/-- Memory after a record holds the new artifact or what it held before. -/
theorem record_found {cache : Cache σ} {now : Millis} {stage : Stage}
    {source compiled key : String} {artifact : Artifact}
    (found : (cache.record now stage source compiled).memory.get? key = some artifact) :
    (key = cacheKey stage source ∧
        artifact = ⟨compiled, fingerprint source, now, cache.policy.schemaVersion⟩) ∨
      (key ≠ cacheKey stage source ∧ cache.memory.get? key = some artifact) := by
  have inserted := trim_found found
  rw [persist_memory, Table.get?_insert] at inserted
  split at inserted
  · cases inserted
    exact .inl ⟨‹_›, rfl⟩
  · exact .inr ⟨‹_›, inserted⟩

/-! ### Outcomes of a lookup -/

/-- Memory has nothing under the key that may be served. -/
def Unserved (cache : Cache σ) (now : Millis) (hash key : String) : Prop :=
  ∀ artifact, cache.memory.get? key = some artifact → cache.isFresh artifact hash now = false

/-- The ways a lookup can go, each with its answer and the cache after it. -/
inductive LooksUp (cache : Cache σ) (now : Millis) (hash key : String) :
    Option String → Cache σ → Prop where
  | remembered {artifact : Artifact} (found : cache.memory.get? key = some artifact)
      (fresh : cache.isFresh artifact hash now = true) :
      LooksUp cache now hash key (some artifact.compiledSource) cache
  | promoted {artifact : Artifact} (unserved : cache.Unserved now hash key)
      (found : cache.persisted key = .held artifact)
      (fresh : cache.isFresh artifact hash now = true) :
      LooksUp cache now hash key (some artifact.compiledSource)
        ((cache.forget key).promote key artifact)
  | missing (unserved : cache.Unserved now hash key) (absent : cache.persisted key = .missing) :
      LooksUp cache now hash key none (cache.forget key)
  | dropped (unserved : cache.Unserved now hash key) (present : cache.persisted key ≠ .missing)
      (stale : ∀ artifact, cache.persisted key = .held artifact →
        cache.isFresh artifact hash now = false) :
      LooksUp cache now hash key none ((cache.forget key).dropPersistent key)

private theorem lookupPersistent_outcome (cache : Cache σ) (now : Millis) (hash key : String)
    (unserved : cache.Unserved now hash key) :
    LooksUp cache now hash key ((cache.forget key).lookupPersistent now hash key).1
      ((cache.forget key).lookupPersistent now hash key).2 := by
  have same : (cache.forget key).persisted key = cache.persisted key := rfl
  unfold lookupPersistent
  rw [same]
  cases known : cache.persisted key with
  | missing => exact .missing unserved known
  | unreadable =>
    refine .dropped unserved (by simp [known]) fun artifact held => ?_
    rw [known] at held
    cases held
  | held artifact =>
    dsimp only
    split
    · exact .promoted unserved known ‹_›
    · rename_i stale
      refine .dropped unserved (by simp [known]) fun other held => ?_
      rw [known] at held
      cases held
      exact Bool.eq_false_iff.mpr stale

/-- A lookup goes one of the four ways. -/
theorem lookup_outcome (cache : Cache σ) (now : Millis) (stage : Stage) (source : String) :
    LooksUp cache now (fingerprint source) (cacheKey stage source)
      (cache.lookup now stage source).1 (cache.lookup now stage source).2 := by
  change LooksUp cache now (fingerprint source) (keyFor stage (fingerprint source)) _ _
  unfold lookup
  dsimp only
  generalize keyFor stage (fingerprint source) = key
  cases found : cache.memory.get? key with
  | none =>
    have unserved : cache.Unserved now (fingerprint source) key := by
      intro artifact held
      rw [found] at held
      cases held
    have same : cache.forget key = cache := by
      rw [forget, Table.erase_of_absent found]
    have outcome := lookupPersistent_outcome cache now (fingerprint source) key unserved
    rw [same] at outcome
    exact outcome
  | some artifact =>
    dsimp only
    split
    · exact .remembered found ‹_›
    · rename_i stale
      refine lookupPersistent_outcome cache now (fingerprint source) key ?_
      intro other held
      rw [found] at held
      cases held
      exact Bool.eq_false_iff.mpr stale

/-- Fresh memory answers without asking the store, and nothing changes. -/
theorem lookup_fresh {cache : Cache σ} {now : Millis} {stage : Stage} {source : String}
    {artifact : Artifact} (found : cache.memory.get? (cacheKey stage source) = some artifact)
    (fresh : cache.isFresh artifact (fingerprint source) now = true) :
    cache.lookup now stage source = (some artifact.compiledSource, cache) := by
  unfold cacheKey at found
  simp only [lookup, found, fresh, if_true]

/-- What neither tier knows is missed, and nothing changes. -/
theorem lookup_missing {cache : Cache σ} {now : Millis} {stage : Stage} {source : String}
    (absent : cache.memory.get? (cacheKey stage source) = none)
    (missing : cache.persisted (cacheKey stage source) = .missing) :
    cache.lookup now stage source = (none, cache) := by
  unfold cacheKey at absent missing
  simp only [lookup, absent, lookupPersistent, missing]

/-- A fresh entry of the store is never missed. -/
theorem lookup_of_persisted {cache : Cache σ} {now : Millis} {stage : Stage} {source : String}
    {artifact : Artifact} (known : cache.persisted (cacheKey stage source) = .held artifact)
    (fresh : cache.isFresh artifact (fingerprint source) now = true) :
    (cache.lookup now stage source).1 ≠ none := by
  intro missed
  have outcome := cache.lookup_outcome now stage source
  rw [missed] at outcome
  generalize (cache.lookup now stage source).2 = after at outcome
  cases outcome with
  | missing unserved absent =>
    rw [known] at absent
    cases absent
  | dropped unserved present stale =>
    rw [stale artifact known] at fresh
    cases fresh

@[simp] theorem lookup_policy (cache : Cache σ) (now : Millis) (stage : Stage) (source : String) :
    (cache.lookup now stage source).2.policy = cache.policy := by
  have outcome := cache.lookup_outcome now stage source
  generalize (cache.lookup now stage source).1 = answer at outcome
  generalize (cache.lookup now stage source).2 = after at outcome ⊢
  cases outcome with
  | remembered => rfl
  | promoted => rfl
  | missing => rfl
  | dropped => exact dropPersistent_policy _ _

@[simp] theorem record_policy (cache : Cache σ) (now : Millis) (stage : Stage)
    (source compiled : String) :
    (cache.record now stage source compiled).policy = cache.policy :=
  persist_policy _ _ _ _

end Overlay.Cache
