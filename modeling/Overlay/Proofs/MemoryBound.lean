import Overlay.Proofs.Retention

/-! How much memory holds, and who makes way. Memory is within its capacity whenever an operation
begins, and an operation puts at most one entry into it, so trimming has one entry to take away at
most: the oldest, of equally old ones the one under the least key, be it the one that has just come
in. Nothing is asked of the store or of the clock. What a promoted entry gains by its promotion is
decided by the same rule, for it keeps the time of its creation: in a full memory of younger entries
it makes way at once. -/
namespace Overlay.Cache
variable {σ : Type}

/-! ### One entry too many -/

/-- The entry that was created first, of those created at one time the one under the least key. -/
structure Oldest (memory : Table String Artifact) (entry : String × Artifact) : Prop where
  listed : entry ∈ memory.entries
  least : ∀ other ∈ memory.entries, entry.2.createdAt.toNat < other.2.createdAt.toNat ∨
    entry.2.createdAt.toNat = other.2.createdAt.toNat ∧ entry.1 ≤ other.1

/-- There is one oldest entry: two have the same key. -/
theorem Oldest.key_eq {memory : Table String Artifact} {one other : String × Artifact}
    (first : Oldest memory one) (second : Oldest memory other) : one.1 = other.1 :=
  key_of_leavesBefore (leavesBefore_iff.mpr (first.least _ second.listed))
    (leavesBefore_iff.mpr (second.least _ first.listed))

/-- What is left of a memory that has to fit: all of it if there is room, and all but the oldest
entry if there is one too many. -/
inductive Fits (capacity : Nat) (full : Table String Artifact) : Table String Artifact → Prop where
  | whole (room : full.size ≤ capacity) : Fits capacity full full
  | without {oldest : String × Artifact} (tooMany : full.size = capacity + 1)
      (first : Oldest full oldest) : Fits capacity full (full.erase oldest.1)

/-- What fits is within the capacity. -/
theorem Fits.size_le {capacity : Nat} {full left : Table String Artifact}
    (fits : Fits capacity full left) (ascending : full.Ascending) : left.size ≤ capacity := by
  cases fits with
  | whole room => exact room
  | without tooMany first =>
    have size := ascending.size_erase (ascending.mem_entries.mp first.listed)
    omega

/-- The first departure is that of the oldest entry. -/
theorem dropOldest_one (memory : Table String Artifact) (some_entry : 0 < memory.size) :
    ∃ oldest, Oldest memory oldest ∧ dropOldest 1 memory = memory.erase oldest.1 := by
  obtain ⟨head, rest, listed⟩ := List.exists_cons_of_length_pos some_entry
  obtain ⟨oldest, chosen⟩ := first?_cons head rest
  rw [← listed] at chosen
  obtain ⟨member, least⟩ := first?_least chosen
  refine ⟨oldest, ⟨member, fun other among => leavesBefore_iff.mp (least other among)⟩, ?_⟩
  rw [dropOldest, chosen]
  rfl

/-- Trimming makes a memory fit that has one entry too many at most. -/
theorem trim_fits (cache : Cache σ)
    (nearly : cache.memory.size ≤ cache.policy.memoryCapacity + 1) :
    Fits cache.policy.memoryCapacity cache.memory cache.trim.2.memory := by
  change Fits _ _ (dropOldest (cache.memory.size - cache.policy.memoryCapacity) cache.memory)
  by_cases room : cache.memory.size ≤ cache.policy.memoryCapacity
  · rw [Nat.sub_eq_zero_of_le room]
    exact .whole room
  · obtain ⟨oldest, first, dropped⟩ := dropOldest_one cache.memory (by omega)
    rw [show cache.memory.size - cache.policy.memoryCapacity = 1 by omega, dropped]
    exact .without (by omega) first

/-! ### The bound -/

/-- Memory lists its entries in order and holds no more than it may. -/
structure Bounded (cache : Cache σ) : Prop where
  ascending : cache.memory.Ascending
  size_le : cache.memory.size ≤ cache.policy.memoryCapacity

variable {cache : Cache σ}

/-- An entry that comes in may be one too many, but no more. -/
theorem Bounded.size_insert_le (bounded : cache.Bounded) (key : String) (artifact : Artifact) :
    (cache.memory.insert key artifact).size ≤ cache.policy.memoryCapacity + 1 := by
  have size := bounded.ascending.size_insert key artifact
  have fewer := Table.size_erase_le cache.memory key
  have bound := bounded.size_le
  omega

theorem Bounded.forget (bounded : cache.Bounded) (key : String) : (cache.forget key).Bounded :=
  ⟨bounded.ascending.erase key, Nat.le_trans (Table.size_erase_le _ _) bounded.size_le⟩

/-- What is promoted comes in among what memory held before. -/
theorem Bounded.promote_fits (bounded : cache.Bounded) (key : String) (artifact : Artifact) :
    Fits cache.policy.memoryCapacity (cache.memory.insert key artifact)
      ((cache.forget key).promote key artifact).memory := by
  have fits := trim_fits { cache.forget key with
    memory := (cache.forget key).memory.insert key artifact }
    ((bounded.forget key).size_insert_le key artifact)
  change Fits _ ((cache.memory.erase key).insert key artifact) _ at fits
  rw [bounded.ascending.insert_erase] at fits
  exact fits

/-- Memory is full, and an entry that comes in would be the oldest in it. -/
structure CrowdsOut (cache : Cache σ) (key : String) (artifact : Artifact) : Prop where
  full : cache.memory.size = cache.policy.memoryCapacity
  absent : cache.memory.get? key = none
  oldest : Oldest (cache.memory.insert key artifact) (key, artifact)

/-- A promoted entry that is not crowded out is in memory afterwards. -/
theorem Bounded.promote_keeps (bounded : cache.Bounded) {key : String} {artifact : Artifact}
    (room : ¬ cache.CrowdsOut key artifact) :
    ((cache.forget key).promote key artifact).memory.get? key = some artifact := by
  have ascending := bounded.ascending.insert key artifact
  have fits := bounded.promote_fits key artifact
  generalize ((cache.forget key).promote key artifact).memory = after at fits ⊢
  cases fits with
  | whole => exact Table.get?_insert_self ..
  | @without oldest tooMany first =>
    rw [Table.get?_erase_of_ne, Table.get?_insert_self]
    rintro rfl
    -- The promoted entry would be the one that makes way, and then memory was full without it.
    apply room
    have itself : oldest = (oldest.1, artifact) := by
      have held := ascending.mem_entries.mp first.listed
      rw [Table.get?_insert_self, Option.some.injEq] at held
      rw [held]
    rw [itself] at first
    have size := bounded.ascending.size_insert oldest.1 artifact
    have bound := bounded.size_le
    cases found : cache.memory.get? oldest.1 with
    | some held =>
      have erased := bounded.ascending.size_erase found
      omega
    | none =>
      rw [Table.erase_of_absent found] at size
      exact ⟨by omega, found, first⟩

/-- A promoted entry that is crowded out leaves everything as it was. -/
theorem Bounded.promote_crowded (bounded : cache.Bounded) {key : String} {artifact : Artifact}
    (crowded : cache.CrowdsOut key artifact) :
    (cache.forget key).promote key artifact = cache := by
  obtain ⟨full, absent, oldest⟩ := crowded
  have size := bounded.ascending.size_insert key artifact
  rw [Table.erase_of_absent absent] at size
  have memory : ((cache.forget key).promote key artifact).memory = cache.memory := by
    have fits := bounded.promote_fits key artifact
    generalize ((cache.forget key).promote key artifact).memory = after at fits ⊢
    cases fits with
    | whole room => omega
    | without tooMany first =>
      rw [first.key_eq oldest, Table.erase_insert_of_absent absent]
  change Cache.mk cache.policy ((cache.forget key).promote key artifact).memory cache.store = cache
  rw [memory]

variable [Store σ]

/-- What is recorded comes in among what memory held before. -/
theorem Bounded.record_fits (bounded : cache.Bounded) (now : Millis) (stage : Stage)
    (source compiled : String) :
    Fits cache.policy.memoryCapacity
      (cache.memory.insert (cacheKey stage source)
        (recordedArtifact cache.policy source compiled now))
      (cache.record now stage source compiled).memory := by
  let key := cacheKey stage source
  let artifact := recordedArtifact cache.policy source compiled now
  let written := Cache.persist { cache with memory := cache.memory.insert key artifact } now key
    artifact
  have memory : written.memory = cache.memory.insert key artifact := persist_memory ..
  have policy : written.policy = cache.policy := persist_policy ..
  have fits := trim_fits written (by
    rw [memory, policy]
    exact bounded.size_insert_le key artifact)
  rwa [memory, policy] at fits

theorem bounded_record (bounded : cache.Bounded) (now : Millis) (stage : Stage)
    (source compiled : String) : (cache.record now stage source compiled).Bounded := by
  refine ⟨ascending_record bounded.ascending now stage source compiled, ?_⟩
  rw [record_policy]
  exact (bounded.record_fits now stage source compiled).size_le (bounded.ascending.insert _ _)

theorem bounded_lookup (bounded : cache.Bounded) (now : Millis) (stage : Stage)
    (source : String) : (cache.lookup now stage source).2.Bounded := by
  refine ⟨ascending_lookup bounded.ascending now stage source, ?_⟩
  rw [lookup_policy]
  have outcome := cache.lookup_outcome now stage source
  generalize (cache.lookup now stage source).1 = answer at outcome
  generalize (cache.lookup now stage source).2 = after at outcome ⊢
  cases outcome with
  | remembered => exact bounded.size_le
  | promoted => exact (bounded.promote_fits _ _).size_le (bounded.ascending.insert _ _)
  | missing => exact (bounded.forget _).size_le
  | dropped =>
    rw [dropPersistent_memory]
    exact (bounded.forget _).size_le

/-- There is nothing to trim for an eviction. -/
theorem Bounded.evict_memory (bounded : cache.Bounded) (now : Millis) :
    (cache.evict now).1.trimmedMemory = 0 ∧ (cache.evict now).2.memory = cache.memory := by
  have excess : cache.memory.size - cache.policy.memoryCapacity = 0 :=
    Nat.sub_eq_zero_of_le bounded.size_le
  simp [evict, trim, excess, dropOldest]

theorem bounded_evict (bounded : cache.Bounded) (now : Millis) :
    (cache.evict now).2.Bounded := by
  have memory := (bounded.evict_memory now).2
  exact ⟨memory ▸ bounded.ascending, by rw [memory, evict_policy]; exact bounded.size_le⟩

theorem bounded_start (policy : CachePolicy) (store : σ) (now : Millis) :
    (start policy store now).Bounded := by
  have bare : Bounded ({ policy, store } : Cache σ) := ⟨Table.ascending_empty, Nat.zero_le _⟩
  exact bounded_evict bare now

theorem bounded_clear (cache : Cache σ) : cache.clear.Bounded := by
  refine ⟨?_, ?_⟩ <;> rw [clear_memory]
  · exact Table.ascending_empty
  · exact Nat.zero_le _

/-- A lookup that memory cannot answer and the store can. -/
structure PersistentHit (cache : Cache σ) (now : Millis) (stage : Stage) (source : String)
    (artifact : Artifact) : Prop where
  unserved : cache.Unserved now (fingerprint source) (cacheKey stage source)
  found : cache.persisted (cacheKey stage source) = .held artifact
  fresh : cache.isFresh artifact (fingerprint source) now = true

theorem PersistentHit.lookup {now : Millis} {stage : Stage} {source : String} {artifact : Artifact}
    (hit : cache.PersistentHit now stage source artifact) :
    (cache.lookup now stage source).2 =
      (cache.forget (cacheKey stage source)).promote (cacheKey stage source) artifact := by
  have outcome := cache.lookup_outcome now stage source
  generalize (cache.lookup now stage source).1 = answer at outcome
  generalize (cache.lookup now stage source).2 = after at outcome ⊢
  cases outcome with
  | remembered found fresh =>
    rw [hit.unserved _ found] at fresh
    cases fresh
  | promoted _ found =>
    rw [hit.found] at found
    cases found
    rfl
  | missing _ absent =>
    rw [hit.found] at absent
    cases absent
  | dropped _ _ stale =>
    have fresh := hit.fresh
    rw [stale _ hit.found] at fresh
    cases fresh

end Overlay.Cache

namespace Overlay
variable {σ : Type} [Store σ]

/-- A run begins with a cache of any policy over any store. -/
def Opened (run : CacheRun σ) : Prop :=
  ∃ policy clock store, run = CacheRun.opened policy clock store

/-- Everything may happen, to the store and to the clock as well. -/
def Unconstrained (_ : CacheRun σ) (_ : CacheEvent σ) : Prop := True

/-- Whatever is done one after another is a run. -/
theorem reached_through (policy : CachePolicy) (clock : Clock) (store : σ)
    (events : List (CacheEvent σ)) : Reached CacheRun.step Unconstrained Opened
      (events.foldl CacheRun.step (CacheRun.opened policy clock store)) := by
  have begins : Reached CacheRun.step Unconstrained Opened (CacheRun.opened policy clock store) :=
    .start ⟨_, _, _, rfl⟩
  generalize CacheRun.opened policy clock store = run at begins
  induction events generalizing run with
  | nil => exact begins
  | cons event events ih => exact ih _ (begins.step event trivial)

private theorem bounded_step {run : CacheRun σ} (bounded : run.cache.Bounded)
    (event : CacheEvent σ) : (run.step event).cache.Bounded := by
  cases event with
  | record stage source compiled => exact Cache.bounded_record bounded run.now stage source compiled
  | lookup stage source => exact Cache.bounded_lookup bounded run.now stage source
  | evict => exact Cache.bounded_evict bounded run.now
  | clear => exact Cache.bounded_clear run.cache
  | reopen policy => exact Cache.bounded_start policy run.cache.store run.now
  | advance step => exact bounded
  | setClock reading => exact bounded
  | disturb store => exact ⟨bounded.ascending, bounded.size_le⟩

theorem bounded_of_reached {run : CacheRun σ}
    (reached : Reached CacheRun.step Unconstrained Opened run) : run.cache.Bounded := by
  apply reached.invariant
  · rintro run ⟨policy, clock, store, rfl⟩
    exact Cache.bounded_start policy store clock.reading
  · intro run event bounded _
    exact bounded_step bounded event

/-- Whatever has happened to the store and to the clock, memory holds no more than it may and an
eviction finds nothing to trim. What a record or a promotion brings in is kept with all that was
there if there is room for it; if not, one entry makes way, the oldest of all with the new one among
them, and every other stays as it is. -/
theorem memory_keeps_all_but_the_oldest {run : CacheRun σ}
    (reached : Reached CacheRun.step Unconstrained Opened run) :
    run.cache.memory.size ≤ run.cache.policy.memoryCapacity ∧
      (run.cache.evict run.now).1.trimmedMemory = 0 ∧
      (∀ stage source compiled,
        Cache.Fits run.cache.policy.memoryCapacity
          (run.cache.memory.insert (cacheKey stage source)
            (recordedArtifact run.cache.policy source compiled run.now))
          (run.step (.record stage source compiled)).cache.memory) ∧
      ∀ stage source artifact, run.cache.PersistentHit run.now stage source artifact →
        Cache.Fits run.cache.policy.memoryCapacity
          (run.cache.memory.insert (cacheKey stage source) artifact)
          (run.step (.lookup stage source)).cache.memory := by
  have bounded := bounded_of_reached reached
  refine ⟨bounded.size_le, (bounded.evict_memory run.now).1, ?_, ?_⟩
  · intro stage source compiled
    exact bounded.record_fits run.now stage source compiled
  · intro stage source artifact hit
    change Cache.Fits _ _ (run.cache.lookup run.now stage source).2.memory
    rw [hit.lookup]
    exact bounded.promote_fits _ _

/-- A run with room for one entry in memory, whose clock is set back before the second record. -/
private def setBack : CacheRun (FaultyStore MemoryStore) :=
  [CacheEvent.record .fragment "a" "one", .setClock 3, .record .fragment "b" "two"].foldl
    CacheRun.step (CacheRun.opened { memoryCapacity := 1 } ⟨5000⟩ ⟨{}, []⟩)

/-- What was recorded after the clock was set back is the oldest. It made way at once, and so it
does again when it is promoted. -/
theorem memory_keeps_all_but_the_oldest_of_two :
    ∃ run : CacheRun (FaultyStore MemoryStore),
      Reached CacheRun.step Unconstrained Opened run ∧ run.cache.policy.memoryCapacity = 1 ∧
      run.cache.PersistentHit run.now .fragment "b" ⟨"two", fingerprint "b", 3, 1⟩ ∧
      run.cache.memory.size ≤ run.cache.policy.memoryCapacity ∧
      (run.cache.evict run.now).1.trimmedMemory = 0 ∧
      Cache.Fits run.cache.policy.memoryCapacity
        (run.cache.memory.insert (cacheKey .fragment "b") ⟨"two", fingerprint "b", 3, 1⟩)
        (run.step (.lookup .fragment "b")).cache.memory ∧
      (run.step (.lookup .fragment "b")).cache.memory = run.cache.memory := by
  have reached : Reached CacheRun.step Unconstrained Opened setBack := reached_through ..
  obtain ⟨capacity, absent, known, fresh, unmoved⟩ :
      setBack.cache.policy.memoryCapacity = 1 ∧
      setBack.cache.memory.get? (cacheKey .fragment "b") = none ∧
      setBack.cache.persisted (cacheKey .fragment "b") =
        .held ⟨"two", fingerprint "b", 3, 1⟩ ∧
      setBack.cache.isFresh ⟨"two", fingerprint "b", 3, 1⟩ (fingerprint "b") setBack.now = true ∧
      (setBack.step (.lookup .fragment "b")).cache.memory = setBack.cache.memory := by
    decide +kernel
  have hit : setBack.cache.PersistentHit setBack.now .fragment "b"
      ⟨"two", fingerprint "b", 3, 1⟩ := by
    refine ⟨fun artifact found => ?_, known, fresh⟩
    rw [absent] at found
    cases found
  obtain ⟨bound, nothing, -, promotes⟩ := memory_keeps_all_but_the_oldest reached
  exact ⟨setBack, reached, capacity, hit, bound, nothing, promotes _ _ _ hit, unmoved⟩

/-- After a lookup that answers, memory holds what was served, and then the same lookup answers the
same without looking at the store, whichever store that is. There is one exception: what was found
in the store is crowded out if memory is full and everything in it is younger, or as old and under a
greater key. Then the lookup leaves everything as it was. -/
theorem served_entry_stays_unless_crowded_out {run : CacheRun σ}
    (reached : Reached CacheRun.step Unconstrained Opened run) {stage : Stage}
    {source compiled : String}
    (served : (run.cache.lookup run.now stage source).1 = some compiled) :
    let key := cacheKey stage source
    let after := (run.step (.lookup stage source)).cache
    ∃ artifact : Artifact, artifact.compiledSource = compiled ∧
      run.cache.isFresh artifact (fingerprint source) run.now = true ∧
      (¬ run.cache.CrowdsOut key artifact ∧ after.memory.get? key = some artifact ∧
          (∀ {τ : Type} [Store τ] (store : τ),
            Cache.lookup ⟨after.policy, after.memory, store⟩ run.now stage source =
              (some compiled, ⟨after.policy, after.memory, store⟩)) ∨
        run.cache.CrowdsOut key artifact ∧ run.cache.PersistentHit run.now stage source artifact ∧
          after = run.cache) := by
  intro key after
  have bounded := bounded_of_reached reached
  have policy : after.policy = run.cache.policy := Cache.lookup_policy ..
  have again {artifact : Artifact} (found : after.memory.get? key = some artifact)
      (fresh : run.cache.isFresh artifact (fingerprint source) run.now = true) {τ : Type} [Store τ]
      (store : τ) : Cache.lookup ⟨after.policy, after.memory, store⟩ run.now stage source =
        (some artifact.compiledSource, ⟨after.policy, after.memory, store⟩) := by
    refine Cache.lookup_fresh found ?_
    rw [Cache.isFresh, policy]
    exact fresh
  have outcome := run.cache.lookup_outcome run.now stage source
  rw [served] at outcome
  change Cache.LooksUp run.cache run.now (fingerprint source) key (some compiled) after at outcome
  generalize after = left at outcome again ⊢
  cases outcome with
  | @remembered artifact found fresh =>
    refine ⟨artifact, rfl, fresh, .inl ⟨fun crowded => ?_, found, again found fresh⟩⟩
    rw [crowded.absent] at found
    cases found
  | @promoted artifact unserved known fresh =>
    refine ⟨artifact, rfl, fresh, ?_⟩
    by_cases crowded : run.cache.CrowdsOut key artifact
    · exact .inr ⟨crowded, ⟨unserved, known, fresh⟩, bounded.promote_crowded crowded⟩
    · have kept := bounded.promote_keeps crowded
      exact .inl ⟨crowded, kept, again kept fresh⟩

/-- A run in whose store there is an entry younger than one of the two that fill the memory. -/
private def reopened : CacheRun (FaultyStore MemoryStore) :=
  [CacheEvent.record .fragment "b" "two", .reopen { memoryCapacity := 2 }, .setClock 1000,
    .record .fragment "a" "one", .setClock 1002, .record .fragment "c" "three"].foldl
    CacheRun.step (CacheRun.opened { memoryCapacity := 2 } ⟨1001⟩ ⟨{}, []⟩)

/-- In a full memory of an older and a younger entry what is found in the store takes the place of
the older one, and then a store of which no call succeeds answers no less. -/
theorem served_entry_stays_beside_younger_one :
    ∃ run : CacheRun (FaultyStore MemoryStore),
      Reached CacheRun.step Unconstrained Opened run ∧ run.cache.policy.memoryCapacity = 2 ∧
      run.cache.memory.size = 2 ∧ (run.cache.lookup run.now .fragment "b").1 = some "two" ∧
      let after := (run.step (.lookup .fragment "b")).cache
      let broken : FaultyStore MemoryStore := ⟨{}, [.get, .put, .delete, .keys, .modified, .size]⟩
      Cache.lookup ⟨after.policy, after.memory, broken⟩ run.now .fragment "b" =
        (some "two", ⟨after.policy, after.memory, broken⟩) := by
  have reached : Reached CacheRun.step Unconstrained Opened reopened := reached_through ..
  obtain ⟨capacity, full, served, moved⟩ :
      reopened.cache.policy.memoryCapacity = 2 ∧ reopened.cache.memory.size = 2 ∧
      (reopened.cache.lookup reopened.now .fragment "b").1 = some "two" ∧
      (reopened.step (.lookup .fragment "b")).cache.memory.get? (cacheKey .fragment "b") ≠
        none := by
    decide +kernel
  refine ⟨reopened, reached, capacity, full, served, ?_⟩
  obtain ⟨artifact, -, -, ⟨-, -, again⟩ | ⟨crowded, -, unmoved⟩⟩ :=
    served_entry_stays_unless_crowded_out reached served
  · exact again _
  · rw [unmoved] at moved
    exact absurd crowded.absent moved

/-- A run in whose memory there is room for one entry, and that is not the older of the two. -/
private def filled : CacheRun (FaultyStore MemoryStore) :=
  [CacheEvent.record .fragment "a" "one", .advance ⟨0, 1000000⟩,
    .record .fragment "b" "two"].foldl
    CacheRun.step (CacheRun.opened { memoryCapacity := 1 } ⟨1000⟩ ⟨{}, []⟩)

/-- In a memory for one entry that holds a younger one, what is found in the store is not in memory
afterwards: when the store cannot be read any more, the text that has just been served is missed. -/
theorem served_entry_is_crowded_out :
    ∃ run : CacheRun (FaultyStore MemoryStore),
      Reached CacheRun.step Unconstrained Opened run ∧ run.cache.policy.memoryCapacity = 1 ∧
      (run.cache.lookup run.now .fragment "a").1 = some "one" ∧
      let after := (run.step (.lookup .fragment "a")).cache
      after.containsInMemory .fragment "a" = false ∧
      (Cache.lookup { after with store := { after.store with failing := [.get] } } run.now
        .fragment "a").1 = none :=
  ⟨filled, reached_through .., by decide +kernel⟩

end Overlay
