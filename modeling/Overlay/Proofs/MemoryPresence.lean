import Overlay.Proofs.MemoryBound

/-! What it means that memory holds an entry for a source. Whatever happened before, every entry in
memory has the schema of the policy in force and lies under the key of its own fingerprint: it was
recorded under that policy, or it was found fresh when it was promoted. So of the three conditions
under which an entry is served only the age can fail later, and nothing is dropped when it does, but
only when somebody looks. Being held and being served are the same until an entry has outlived the
limit, and differ from then on. -/
namespace Overlay

/-- Every call there is. -/
def StoreCall.all : List StoreCall :=
  [.get, .put, .delete, .keys, .modified, .size]

namespace Cache
variable {σ : Type}

/-- The cache over its store while no call succeeds. -/
def cutOff (cache : Cache (FaultyStore σ)) : Cache (FaultyStore σ) :=
  { cache with store := { cache.store with failing := StoreCall.all } }

/-- Every entry in memory has the schema in force and lies under the key of its fingerprint. -/
def Matching (cache : Cache σ) : Prop :=
  ∀ key artifact, cache.memory.get? key = some artifact →
    artifact.version = cache.policy.schemaVersion ∧ ∃ stage, key = keyFor stage artifact.sourceHash

/-- Where memory has become less what is left matches. -/
theorem Matching.shrink {cache after : Cache σ} (matching : cache.Matching)
    (policy : after.policy = cache.policy)
    (fewer : ∀ key artifact, after.memory.get? key = some artifact →
      cache.memory.get? key = some artifact) : after.Matching := by
  intro key artifact found
  rw [policy]
  exact matching key artifact (fewer key artifact found)

theorem matching_of_empty {cache : Cache σ} (empty : cache.memory = ∅) : cache.Matching := by
  intro key artifact found
  rw [empty, Table.get?_empty] at found
  cases found

/-- An entry that is held for a source was made from its fingerprint. -/
theorem Matching.held {cache : Cache σ} (matching : cache.Matching) {stage : Stage}
    {source : String} {artifact : Artifact}
    (found : cache.memory.get? (cacheKey stage source) = some artifact) :
    artifact.version = cache.policy.schemaVersion ∧ artifact.sourceHash = fingerprint source := by
  obtain ⟨version, other, same⟩ := matching _ _ found
  exact ⟨version, (keyFor_inj same).2.symm⟩

variable [Store σ] {cache : Cache σ}

theorem matching_record (matching : cache.Matching) (now : Millis) (stage : Stage)
    (source compiled : String) : (cache.record now stage source compiled).Matching := by
  intro key artifact found
  rw [record_policy]
  rcases record_found found with ⟨rfl, rfl⟩ | ⟨-, before⟩
  · exact ⟨rfl, stage, rfl⟩
  · exact matching key artifact before

theorem matching_lookup (matching : cache.Matching) (now : Millis) (stage : Stage)
    (source : String) : (cache.lookup now stage source).2.Matching := by
  have policy := cache.lookup_policy now stage source
  have outcome := cache.lookup_outcome now stage source
  generalize (cache.lookup now stage source).1 = answer at outcome
  generalize (cache.lookup now stage source).2 = after at outcome policy ⊢
  have forgetting : (cache.forget (cacheKey stage source)).Matching :=
    matching.shrink rfl fun _ _ found => (Table.get?_of_get?_erase found).2
  cases outcome with
  | remembered => exact matching
  | promoted _ _ fresh =>
    intro key artifact found
    have inserted := trim_found found
    rw [Table.get?_insert] at inserted
    split at inserted
    · rename_i here
      cases inserted
      -- What is promoted has just been found to match.
      obtain ⟨version, hash, -⟩ := isFresh_iff.mp fresh
      exact ⟨version, stage, by rw [here, hash, cacheKey]⟩
    · exact forgetting key artifact inserted
  | missing => exact forgetting
  | dropped =>
    refine forgetting.shrink policy fun _ _ found => ?_
    rwa [dropPersistent_memory] at found

theorem matching_evict (matching : cache.Matching) (now : Millis) :
    (cache.evict now).2.Matching := by
  refine matching.shrink (cache.evict_policy now) fun key artifact found => ?_
  have before := trim_found found
  rwa [expire_memory] at before

end Cache

variable {σ : Type} [Store σ]

private theorem matching_step {run : CacheRun σ} (matching : run.cache.Matching)
    (event : CacheEvent σ) : (run.step event).cache.Matching := by
  cases event with
  | record stage source compiled => exact Cache.matching_record matching run.now stage source compiled
  | lookup stage source => exact Cache.matching_lookup matching run.now stage source
  | evict => exact Cache.matching_evict matching run.now
  | clear => exact Cache.matching_of_empty (Cache.clear_memory run.cache)
  | reopen policy => exact Cache.matching_of_empty (Cache.start_memory policy run.cache.store run.now)
  | advance step => exact matching
  | setClock reading => exact matching
  | disturb store => exact matching

theorem matching_of_reached {run : CacheRun σ}
    (reached : Reached CacheRun.step Unconstrained Opened run) : run.cache.Matching := by
  apply reached.invariant
  · rintro run ⟨policy, clock, store, rfl⟩
    exact Cache.matching_of_empty (Cache.start_memory policy store clock.reading)
  · intro run event matching _
    exact matching_step matching event

namespace Cache

theorem containsInMemory_iff {σ : Type} {cache : Cache σ} {stage : Stage} {source : String} :
    cache.containsInMemory stage source = true ↔
      ∃ artifact, cache.memory.get? (cacheKey stage source) = some artifact :=
  Option.isSome_iff_exists

/-- While no call succeeds, memory alone answers. -/
theorem lookup_cutOff (cache : Cache (FaultyStore σ)) (now : Millis) (stage : Stage)
    (source compiled : String) : (cache.cutOff.lookup now stage source).1 = some compiled ↔
      ∃ artifact, cache.memory.get? (cacheKey stage source) = some artifact ∧
        cache.isFresh artifact (fingerprint source) now = true ∧
        artifact.compiledSource = compiled := by
  constructor
  · intro answered
    have outcome := cache.cutOff.lookup_outcome now stage source
    rw [answered] at outcome
    generalize (cache.cutOff.lookup now stage source).2 = after at outcome
    cases outcome with
    | @remembered artifact found fresh => exact ⟨artifact, found, fresh, rfl⟩
    | promoted _ known => cases known
  · rintro ⟨artifact, found, fresh, rfl⟩
    have found : cache.cutOff.memory.get? (cacheKey stage source) = some artifact := found
    exact lookup_remembered found fresh

end Cache

/-- In every state a cache gets into, a lookup made while no call on the store succeeds answers
exactly if a fresh entry is held in memory. Memory is said to hold an entry exactly if it holds one,
fresh or not, and then the entry has the schema in force and the fingerprint of the source. So what
is said agrees with what a lookup would find if and only if no entry is held for the source that has
outlived the limit. -/
theorem presence_is_freshness_but_for_age {run : CacheRun (FaultyStore σ)}
    (reached : Reached CacheRun.step Unconstrained Opened run) (now : Millis) (stage : Stage)
    (source : String) :
    let held := run.cache.memory.get? (cacheKey stage source)
    let answer := (run.cache.cutOff.lookup now stage source).1
    (answer.isSome = true ↔ ∃ artifact, held = some artifact ∧
      run.cache.isFresh artifact (fingerprint source) now = true) ∧
    (run.cache.containsInMemory stage source = true ↔ ∃ artifact, held = some artifact ∧
      artifact.version = run.cache.policy.schemaVersion ∧
      artifact.sourceHash = fingerprint source) ∧
    (run.cache.containsInMemory stage source = answer.isSome ↔ ∀ artifact, held = some artifact →
      ageAt now artifact.createdAt ≤ run.cache.policy.maxAge.wholeMillis.toNat) := by
  intro held answer
  have matching := matching_of_reached reached
  have answers : answer.isSome = true ↔ ∃ artifact, held = some artifact ∧
      run.cache.isFresh artifact (fingerprint source) now = true := by
    rw [Option.isSome_iff_exists]
    constructor
    · rintro ⟨compiled, answered⟩
      obtain ⟨artifact, found, fresh, -⟩ := (Cache.lookup_cutOff _ _ _ _ _).mp answered
      exact ⟨artifact, found, fresh⟩
    · rintro ⟨artifact, found, fresh⟩
      exact ⟨_, (Cache.lookup_cutOff _ _ _ _ _).mpr ⟨artifact, found, fresh, rfl⟩⟩
  refine ⟨answers, ?_, ?_⟩
  · rw [Cache.containsInMemory_iff]
    constructor
    · rintro ⟨artifact, found⟩
      exact ⟨artifact, found, matching.held found⟩
    · rintro ⟨artifact, found, -⟩
      exact ⟨artifact, found⟩
  · rw [Bool.eq_iff_iff, answers, Cache.containsInMemory_iff]
    constructor
    · intro agree artifact found
      obtain ⟨other, foundAgain, fresh⟩ := agree.mp ⟨artifact, found⟩
      obtain rfl : artifact = other := Option.some.inj (found.symm.trans foundAgain)
      exact (Cache.isFresh_iff.mp fresh).2.2
    · intro young
      constructor
      · rintro ⟨artifact, found⟩
        obtain ⟨version, hash⟩ := matching.held found
        exact ⟨artifact, found, Cache.isFresh_iff.mpr ⟨version, hash, young artifact found⟩⟩
      · rintro ⟨artifact, found, -⟩
        exact ⟨artifact, found⟩

/-- A run that has let time pass after its only record, under a limit of ten milliseconds. -/
private def aged (step : Duration) : CacheRun (FaultyStore MemoryStore) :=
  [CacheEvent.record .fragment "raw" "one", .advance step].foldl CacheRun.step
    (CacheRun.opened { maxAge := ⟨0, 10000000⟩ } ⟨1000⟩ ⟨{}, []⟩)

/-- An entry that is exactly as old as the limit allows is held and would be served. -/
theorem presence_is_freshness_at_limit :
    ∃ run : CacheRun (FaultyStore MemoryStore), Reached CacheRun.step Unconstrained Opened run ∧
      run.cache.containsInMemory .fragment "raw" = true ∧
      (run.cache.cutOff.lookup run.now .fragment "raw").1.isSome = true := by
  let run := aged ⟨0, 10000000⟩
  have reached : Reached CacheRun.step Unconstrained Opened run := reached_through ..
  obtain ⟨contains, young⟩ : run.cache.containsInMemory .fragment "raw" = true ∧
      (run.cache.memory.get? (cacheKey .fragment "raw")).all (fun artifact =>
        ageAt run.now artifact.createdAt ≤ run.cache.policy.maxAge.wholeMillis.toNat) = true := by
    decide +kernel
  obtain ⟨-, -, agree⟩ := presence_is_freshness_but_for_age reached run.now .fragment "raw"
  refine ⟨run, reached, contains, ?_⟩
  rw [← agree.mpr fun artifact found => ?_, contains]
  rw [found, Option.all_some] at young
  exact of_decide_eq_true young

/-- A millisecond later it is still said to be held, and a lookup would not serve it. -/
theorem outlived_entry_is_said_to_be_held :
    ∃ run : CacheRun (FaultyStore MemoryStore), Reached CacheRun.step Unconstrained Opened run ∧
      run.cache.containsInMemory .fragment "raw" = true ∧
      (run.cache.cutOff.lookup run.now .fragment "raw").1 = none :=
  ⟨aged ⟨0, 11000000⟩, reached_through .., by decide +kernel⟩

end Overlay
