import Overlay.Proofs.CacheContents
import Overlay.Proofs.CacheKeys
import Overlay.Proofs.CacheRuns

/-! A cache over a store in memory answers like one table whose entries live for a limited time. Two
tiers, a capacity, promotion, expiry by two different stamps and restarts are ways to get there and
nothing more: what a lookup answers depends on the records since the last clearing and on the time
alone. The invariant ties both tiers to the past: every entry of either tier is what the latest
record of its source says, and the store has kept every such record that is still young enough. -/
namespace Overlay
open LawfulStore (held)

namespace Cache

/-! ### A store that never fails -/

theorem record_entries (cache : Cache MemoryStore) (now : Millis) (stage : Stage)
    (source compiled : String) :
    (cache.record now stage source compiled).store.entries =
      cache.store.entries.insert (cacheKey stage source)
        ⟨Artifact.encode ⟨compiled, fingerprint source, now, cache.policy.schemaVersion⟩,
          now⟩ := by
  have accepted := isKey_cacheKey stage source
  change Store.isKey (keyFor stage (fingerprint source)) = true at accepted
  simp only [record, trim_store, persist, Store.put, MemoryStore.put, accepted, if_true]
  rfl

private theorem dropPersistent_entries (cache : Cache MemoryStore) (key : String) :
    (cache.dropPersistent key).store.entries = cache.store.entries.erase key := rfl

/-- Whether an entry is within the limit by its stamp. -/
def within (cache : Cache MemoryStore) (now : Millis) (entry : MemoryEntry) : Bool :=
  decide (ageAt now entry.modified ≤ cache.policy.maxAge.wholeMillis.toNat)

private theorem isExpired_iff (cache : Cache MemoryStore) (now : Millis) (key : String) :
    cache.isExpired now key = true ↔
      ∃ entry, cache.store.entries.get? key = some entry ∧ cache.within now entry = false := by
  simp only [isExpired, Store.modified, within]
  cases cache.store.entries.get? key with
  | none => simp
  | some entry => simp

private theorem expire_entry (cache : Cache MemoryStore) (now : Millis) (keys : List String)
    (probe : String) :
    (cache.expire now keys).2.store.entries.get? probe =
      if probe ∈ keys then (cache.store.entries.get? probe).filter (cache.within now)
      else cache.store.entries.get? probe := by
  induction keys generalizing cache with
  | nil => simp [expire]
  | cons key keys ih =>
    -- Expiry does not look at what it has deleted, so the rest goes by the same stamps.
    by_cases expired : cache.isExpired now key = true
    · have deleted : (cache.expire now (key :: keys)).2 =
          (Cache.expire { cache with store := cache.store.delete key } now keys).2 := by
        rw [expire, if_pos expired]
        rfl
      have rest := ih { cache with store := cache.store.delete key }
      change _ = if probe ∈ keys
        then ((cache.store.entries.erase key).get? probe).filter (cache.within now)
        else (cache.store.entries.erase key).get? probe at rest
      obtain ⟨entry, found, outlived⟩ := (isExpired_iff cache now key).mp expired
      rw [deleted, rest, Table.get?_erase]
      by_cases same : probe = key
      · subst probe
        simp [found, Option.filter, outlived]
      · simp [same]
    · have kept : (cache.expire now (key :: keys)).2 = (cache.expire now keys).2 := by
        rw [expire, if_neg expired]
      rw [kept, ih cache]
      by_cases same : probe = key
      · subst probe
        have unchanged : (cache.store.entries.get? key).filter (cache.within now) =
            cache.store.entries.get? key := by
          cases found : cache.store.entries.get? key with
          | none => rfl
          | some entry =>
            have young : cache.within now entry = true := by
              rw [← Bool.not_eq_false]
              intro outlived
              exact expired ((isExpired_iff cache now key).mpr ⟨entry, found, outlived⟩)
            simp [Option.filter, young]
        simp [unchanged]
      · simp [same]

/-- Eviction leaves in the store exactly the entries within the limit. -/
theorem evict_entry (cache : Cache MemoryStore) (now : Millis) (key : String) :
    (cache.evict now).2.store.entries.get? key =
      (cache.store.entries.get? key).filter (cache.within now) := by
  rw [evict_store, expire_entry]
  split
  · rfl
  · rename_i unlisted
    have listed := Table.mem_keys cache.store.entries key
    change ¬ key ∈ cache.store.entries.keys at unlisted
    rw [listed, Bool.not_eq_true, Option.isSome_eq_false_iff, Option.isNone_iff_eq_none] at unlisted
    rw [unlisted]
    rfl

private theorem dropAll_entry (keys : List String) (cache : Cache MemoryStore) (probe : String) :
    (keys.foldl dropPersistent cache).store.entries.get? probe =
      if probe ∈ keys then none else cache.store.entries.get? probe := by
  induction keys generalizing cache with
  | nil => simp
  | cons key keys ih =>
    rw [List.foldl_cons, ih, dropPersistent_entries, Table.get?_erase]
    by_cases listed : probe ∈ keys
    · simp [listed]
    · by_cases same : probe = key <;> simp [listed, same]

/-- Clearing leaves nothing in the store. -/
theorem clear_entry (cache : Cache MemoryStore) (key : String) :
    cache.clear.store.entries.get? key = none := by
  rw [clear, dropAll_entry]
  split
  · rfl
  · rename_i unlisted
    have listed := Table.mem_keys cache.store.entries key
    change ¬ key ∈ cache.store.entries.keys at unlisted
    rwa [listed, Bool.not_eq_true, Option.isSome_eq_false_iff, Option.isNone_iff_eq_none]
      at unlisted

/-- The store as it stands says what it holds under a key, and a fresh artifact is read from it. -/
private theorem persisted_of_entry {cache : Cache MemoryStore} {key : String} {artifact : Artifact}
    {stored : Millis} (found : cache.store.entries.get? key = some ⟨artifact.encode, stored⟩) :
    cache.persisted key = .held artifact := by
  simp [persisted, Store.get, found, Artifact.decode?_encode]

end Cache

/-- The answer of a table whose entries live for a limited time. -/
def timedAnswer (limit : Nat) (now : Millis) : Option (String × Millis) → Option String
  | some (compiled, stored) => if ageAt now stored ≤ limit then some compiled else none
  | none => none

/-- The artifact that a record files. -/
def recordedArtifact (policy : CachePolicy) (source compiled : String) (stored : Millis) :
    Artifact :=
  ⟨compiled, fingerprint source, stored, policy.schemaVersion⟩

/-- An entry says what the latest record of some source says. -/
def Traced (policy : CachePolicy) (past : List (Moment MemoryStore)) (key : String)
    (artifact : Artifact) : Prop :=
  ∃ stage source compiled stored, lastRecorded stage source past = some (compiled, stored) ∧
    key = cacheKey stage source ∧ artifact = recordedArtifact policy source compiled stored

/-- Both tiers are tied to the past. -/
structure Coupled (policy : CachePolicy) (now : Millis) (past : List (Moment MemoryStore))
    (cache : Cache MemoryStore) : Prop where
  policy_same : cache.policy = policy
  traced : cache.Holds (Traced policy past)
  /-- The stamp of an entry is the time it was recorded at. -/
  stamped {key : String} {entry : MemoryEntry} : cache.store.entries.get? key = some entry →
    ∃ artifact : Artifact, entry = ⟨artifact.encode, artifact.createdAt⟩
  /-- What was recorded and is still young is in the store. -/
  kept {stage : Stage} {source compiled : String} {stored : Millis} :
    lastRecorded stage source past = some (compiled, stored) →
    ageAt now stored ≤ policy.maxAge.wholeMillis.toNat →
    cache.store.entries.get? (cacheKey stage source) =
      some ⟨(recordedArtifact policy source compiled stored).encode, stored⟩

namespace Coupled
variable {policy : CachePolicy} {now : Millis} {past : List (Moment MemoryStore)}
  {cache : Cache MemoryStore}

private theorem opened (policy : CachePolicy) (now : Millis) :
    Coupled policy now [] (Cache.start policy ({} : MemoryStore) now) where
  policy_same := Cache.evict_policy _ _
  traced := (Cache.holds_empty fun _ => rfl).evict now
  stamped found := by
    rw [Cache.start, Cache.evict_entry] at found
    cases found
  kept recorded := by cases recorded

/-- The store after a record, by what the record says. -/
private theorem record_entries (coupled : Coupled policy now past cache) (stage : Stage)
    (source compiled : String) :
    (cache.record now stage source compiled).store.entries =
      cache.store.entries.insert (cacheKey stage source)
        ⟨(recordedArtifact policy source compiled now).encode, now⟩ := by
  rw [Cache.record_entries, coupled.policy_same]
  rfl

private theorem record_traced {stage : Stage} {source compiled : String}
    (coupled : Coupled policy now past cache) :
    (cache.record now stage source compiled).Holds
      (Traced policy (⟨now, cache.policy, .record stage source compiled⟩ :: past)) := by
  have new : Traced policy (⟨now, cache.policy, .record stage source compiled⟩ :: past)
      (cacheKey stage source) (recordedArtifact policy source compiled now) :=
    ⟨stage, source, compiled, now, lastRecorded_record_self .., rfl, rfl⟩
  -- The record shadows what was recorded for the same source and leaves every other source alone.
  have shadowed : ∀ key artifact, key ≠ cacheKey stage source →
      Traced policy past key artifact →
      Traced policy (⟨now, cache.policy, .record stage source compiled⟩ :: past) key artifact := by
    rintro key artifact apartKey ⟨other, text, found, stored, recorded, rfl, shape⟩
    have different : ¬ (stage = other ∧ source = text) := by
      rintro ⟨rfl, rfl⟩
      exact apartKey rfl
    exact ⟨other, text, found, stored,
      (lastRecorded_record_of_ne different ..).trans recorded, rfl, shape⟩
  refine ⟨fun found => ?_, fun found read => ?_⟩
  · rcases Cache.record_found found with ⟨rfl, rfl⟩ | ⟨apartKey, found⟩
    · rw [coupled.policy_same]
      exact new
    · exact shadowed _ _ apartKey (coupled.traced.memory found)
  · change (Table.get? _ _).map _ = some _ at found
    rw [coupled.record_entries, Table.get?_insert] at found
    split at found
    · subst_vars
      cases found
      rw [Artifact.decode?_encode] at read
      cases read
      exact new
    · exact shadowed _ _ ‹_› (coupled.traced.store found read)

/-- The new entry lies under a key of its own, for no other source has the same fingerprint. -/
private theorem record_kept {stage other : Stage} {source compiled text found : String}
    {stored : Millis} (coupled : Coupled policy now past cache)
    (apart : Apart (source :: CacheRun.sources past))
    (recorded : lastRecorded other text
      (⟨now, cache.policy, .record stage source compiled⟩ :: past) = some (found, stored))
    (young : ageAt now stored ≤ policy.maxAge.wholeMillis.toNat) :
    (cache.record now stage source compiled).store.entries.get? (cacheKey other text) =
      some ⟨(recordedArtifact policy text found stored).encode, stored⟩ := by
  rw [coupled.record_entries, Table.get?_insert]
  by_cases this : stage = other ∧ source = text
  · obtain ⟨rfl, rfl⟩ := this
    rw [lastRecorded_record_self] at recorded
    cases recorded
    rw [if_pos rfl]
  · rw [lastRecorded_record_of_ne this] at recorded
    have apartKey : cacheKey other text ≠ cacheKey stage source := by
      intro sameKey
      obtain ⟨sameStage, sameHash⟩ := cacheKey_eq_iff.mp sameKey
      have sameText := apart text (List.mem_cons_of_mem _ (mem_sources_of_lastRecorded recorded))
        source List.mem_cons_self sameHash
      exact this ⟨sameStage.symm, sameText.symm⟩
    rw [if_neg apartKey]
    exact coupled.kept recorded young

private theorem record {stage : Stage} {source compiled : String}
    (coupled : Coupled policy now past cache) (apart : Apart (source :: CacheRun.sources past)) :
    Coupled policy now (⟨now, cache.policy, .record stage source compiled⟩ :: past)
      (cache.record now stage source compiled) where
  policy_same := (Cache.record_policy ..).trans coupled.policy_same
  traced := coupled.record_traced
  stamped := by
    intro key entry found
    rw [coupled.record_entries, Table.get?_insert] at found
    split at found
    · cases found
      exact ⟨_, rfl⟩
    · exact coupled.stamped found
  kept recorded young := coupled.record_kept apart recorded young

/-- An event that records and clears nothing is no part of what was last recorded. -/
private theorem traced_after (moment : Moment MemoryStore)
    (silent : ∀ stage source, lastRecorded stage source (moment :: past) =
      lastRecorded stage source past) (holds : cache.Holds (Traced policy past)) :
    cache.Holds (Traced policy (moment :: past)) := by
  apply holds.mono
  rintro key artifact ⟨stage, source, compiled, stored, recorded, shape⟩
  exact ⟨stage, source, compiled, stored, (silent stage source).trans recorded, shape⟩

private theorem lookup (coupled : Coupled policy now past cache) (stage : Stage) (source : String) :
    Coupled policy now (⟨now, policy, .lookup stage source⟩ :: past)
      (cache.lookup now stage source).2 := by
  have traced := traced_after ⟨now, policy, .lookup stage source⟩ (fun _ _ => rfl)
    (coupled.traced.lookup now stage source)
  have outcome := cache.lookup_outcome now stage source
  refine ⟨(Cache.lookup_policy ..).trans coupled.policy_same, traced, fun found => ?_,
    fun recorded young => ?_⟩
  · generalize (cache.lookup now stage source).1 = answer at outcome
    generalize (cache.lookup now stage source).2 = after at outcome found
    cases outcome with
    | remembered => exact coupled.stamped found
    | promoted => exact coupled.stamped found
    | missing => exact coupled.stamped found
    | dropped => exact coupled.stamped (Table.get?_of_get?_erase found).2
  · rename_i other text compiled stored
    have kept := coupled.kept recorded young
    generalize (cache.lookup now stage source).1 = answer at outcome
    generalize (cache.lookup now stage source).2 = after at outcome ⊢
    cases outcome with
    | remembered => exact kept
    | promoted => exact kept
    | missing => exact kept
    | dropped unserved present stale =>
      -- Only a stale entry is deleted, and what is kept under its key would be fresh.
      change (cache.store.entries.erase (cacheKey stage source)).get? _ = _
      rw [Table.get?_erase]
      split
      · rename_i sameKey
        rw [sameKey] at kept
        have fresh : cache.isFresh (recordedArtifact policy text compiled stored)
            (fingerprint source) now = true := by
          rw [Cache.isFresh_iff, coupled.policy_same]
          exact ⟨rfl, (cacheKey_eq_iff.mp sameKey).2, young⟩
        rw [stale _ (Cache.persisted_of_entry kept)] at fresh
        cases fresh
      · exact kept

private theorem evict (coupled : Coupled policy now past cache) :
    Coupled policy now (⟨now, policy, .evict⟩ :: past) (cache.evict now).2 := by
  have traced := traced_after ⟨now, policy, .evict⟩ (fun _ _ => rfl)
    (coupled.traced.evict now)
  refine ⟨(Cache.evict_policy ..).trans coupled.policy_same, traced, fun found => ?_,
    fun recorded young => ?_⟩
  · rw [Cache.evict_entry, Option.filter_eq_some_iff] at found
    exact coupled.stamped found.1
  · rw [Cache.evict_entry, coupled.kept recorded young, Option.filter_eq_some_iff]
    refine ⟨rfl, ?_⟩
    rw [Cache.within, decide_eq_true_eq, coupled.policy_same]
    exact young

/-- Opening the cache anew is an eviction with nothing in memory. -/
private theorem reopen (coupled : Coupled policy now past cache) :
    Coupled policy now (⟨now, policy, .reopen policy⟩ :: past)
      (Cache.start policy cache.store now) := by
  have bare : Coupled policy now past { policy, store := cache.store } :=
    ⟨rfl, coupled.traced.shrink (fun _ _ found => by simp at found) (fun _ _ found => found),
      coupled.stamped, coupled.kept⟩
  obtain ⟨same, traced, stamped, kept⟩ := bare.evict
  exact ⟨same, traced.mono fun _ _ traced => traced, stamped, kept⟩

private theorem clear (coupled : Coupled policy now past cache) :
    Coupled policy now (⟨now, policy, .clear⟩ :: past) cache.clear := by
  refine ⟨(Cache.clear_policy cache).trans coupled.policy_same,
    ⟨fun found => ?_, fun found _ => ?_⟩, fun found => ?_, fun recorded _ => ?_⟩
  · simp at found
  · change (Table.get? _ _).map _ = some _ at found
    rw [Cache.clear_entry] at found
    cases found
  · rw [Cache.clear_entry] at found
    cases found
  · cases recorded

/-- As time goes on fewer records are young enough to have to be kept. -/
private theorem later (coupled : Coupled policy now past cache) (moment : Moment MemoryStore)
    (silent : ∀ stage source, lastRecorded stage source (moment :: past) =
      lastRecorded stage source past) {reading : Millis} (forward : now.toNat ≤ reading.toNat) :
    Coupled policy reading (moment :: past) cache := by
  refine ⟨coupled.policy_same, traced_after moment silent coupled.traced, coupled.stamped,
    fun recorded young => ?_⟩
  rw [silent] at recorded
  apply coupled.kept recorded
  unfold ageAt at young ⊢
  omega

end Coupled

/-! ### Whole runs -/

/-- What a run over a store of its own consists of: the cache is used, reopened with the policy it
has, and time goes on without reaching the end of the clock. -/
def Undisturbed (run : CacheRun MemoryStore) : CacheEvent MemoryStore → Prop
  | .reopen policy => policy = run.cache.policy
  | .advance step => run.now.toNat + step.wholeMillis.toNat < UInt64.size
  | .setClock _ | .disturb _ => False
  | _ => True

private theorem coupled_step {policy : CachePolicy} {run : CacheRun MemoryStore}
    {event : CacheEvent MemoryStore} (apart : Apart (CacheRun.sources (run.step event).past))
    (coupled : Coupled policy run.now run.past run.cache) (allowed : Undisturbed run event) :
    Coupled policy (run.step event).now (run.step event).past (run.step event).cache := by
  have same := coupled.policy_same
  cases event with
  | record stage source compiled => exact coupled.record apart
  | lookup stage source =>
    have after := coupled.lookup stage source
    rwa [← same] at after ⊢
  | evict =>
    have after := coupled.evict
    rwa [← same] at after ⊢
  | clear =>
    have after := coupled.clear
    rwa [← same] at after ⊢
  | reopen other =>
    obtain rfl : other = policy := allowed.trans same
    have after := coupled.reopen
    rwa [← same] at after ⊢
  | advance step =>
    have forward : run.now.toNat ≤ (run.clock.advance step).reading.toNat := by
      change _ ≤ (run.now + step.wholeMillis).toNat
      rw [UInt64.toNat_add, Nat.mod_eq_of_lt allowed]
      omega
    have after := coupled.later ⟨run.now, policy, .advance step⟩ (fun _ _ => rfl) forward
    rwa [← same] at after ⊢
  | setClock reading => exact allowed.elim
  | disturb store => exact allowed.elim

/-- A run begins with a cache opened over an empty store. -/
def OpenedEmpty (policy : CachePolicy) (run : CacheRun MemoryStore) : Prop :=
  ∃ clock, run = CacheRun.opened policy clock {}

private theorem coupled_of_reached {policy : CachePolicy} {run : CacheRun MemoryStore}
    (reached : Reached CacheRun.step Undisturbed (OpenedEmpty policy) run)
    (apart : Apart (CacheRun.sources run.past)) :
    Coupled policy run.now run.past run.cache := by
  revert apart
  apply reached.invariant
  · rintro state ⟨clock, rfl⟩ _
    exact Coupled.opened policy clock.reading
  · intro state event coupled allowed apart
    have earlier : Apart (CacheRun.sources state.past) :=
      apart.mono (CacheRun.sources_subset _ _)
    exact coupled_step apart (coupled earlier) allowed

/-- Every lookup of a run answers like a table with a limited time to live: with the text that was
last recorded for the source since the cache was last cleared as long as its age is within the
limit, and with nothing otherwise. -/
theorem lookup_is_timed {policy : CachePolicy} {run : CacheRun MemoryStore}
    (reached : Reached CacheRun.step Undisturbed (OpenedEmpty policy) run)
    (stage : Stage) (source : String) (apart : Apart (source :: CacheRun.sources run.past)) :
    (run.cache.lookup run.now stage source).1 =
      timedAnswer policy.maxAge.wholeMillis.toNat run.now (lastRecorded stage source run.past) := by
  have coupled := coupled_of_reached reached (apart.mono (List.subset_cons_self _ _))
  cases answered : (run.cache.lookup run.now stage source).1 with
  | some compiled =>
    obtain ⟨artifact, ⟨other, text, found, stored, recorded, sameKey, shape⟩, rfl, fresh⟩ :=
      coupled.traced.served answered
    obtain ⟨rfl, sameHash⟩ := cacheKey_eq_iff.mp sameKey
    obtain rfl := apart source (by simp) text
      (List.mem_cons_of_mem _ (mem_sources_of_lastRecorded recorded)) sameHash
    rw [Cache.isFresh_iff, coupled.policy_same, shape] at fresh
    have young : ageAt run.now stored ≤ policy.maxAge.wholeMillis.toNat := fresh.2.2
    rw [recorded, timedAnswer, if_pos young, shape]
    rfl
  | none =>
    cases recorded : lastRecorded stage source run.past with
    | none => rfl
    | some entry =>
      obtain ⟨compiled, stored⟩ := entry
      rw [timedAnswer, if_neg]
      intro young
      have known := Cache.persisted_of_entry (coupled.kept recorded young)
      refine Cache.lookup_of_persisted known ?_ answered
      rw [Cache.isFresh_iff, coupled.policy_same]
      exact ⟨rfl, rfl, young⟩

/-- With room for one entry and a limit of a second, what another record drove out of memory is
answered a second later by a cache that was opened anew, and a moment after that no more. -/
theorem lookup_is_timed_at_limit :
    ∃ run : CacheRun MemoryStore,
      Reached CacheRun.step Undisturbed
        (OpenedEmpty { maxAge := ⟨1, 0⟩, memoryCapacity := 1 }) run ∧
      Apart ("raw" :: CacheRun.sources run.past) ∧
      (run.cache.lookup run.now .fragment "raw").1 = some "one" ∧
      ((run.step (.advance ⟨0, 1000000⟩)).cache.lookup (run.step (.advance ⟨0, 1000000⟩)).now
        .fragment "raw").1 = none := by
  let policy : CachePolicy := { maxAge := ⟨1, 0⟩, memoryCapacity := 1 }
  have opened : Reached CacheRun.step Undisturbed (OpenedEmpty policy)
      (CacheRun.opened policy ⟨1000⟩ {}) := .start ⟨⟨1000⟩, rfl⟩
  have first := opened.step (CacheEvent.record .fragment "raw" "one") trivial
  have second := first.step (CacheEvent.record .vertex "other" "two") trivial
  have third := second.step (CacheEvent.advance ⟨1, 0⟩) (by
    simp only [Undisturbed]
    decide +kernel)
  have fourth := third.step CacheEvent.evict trivial
  have last := fourth.step (CacheEvent.reopen policy) (by
    simp only [Undisturbed]
    decide +kernel)
  have after := last.step (CacheEvent.advance ⟨0, 1000000⟩) (by
    simp only [Undisturbed]
    decide +kernel)
  have apart : Apart ["raw", "other"] := by
    unfold Apart
    decide +kernel
  refine ⟨_, last, apart.mono (by decide +kernel),
    (lookup_is_timed last .fragment "raw" (apart.mono (by decide +kernel))).trans
      (by decide +kernel),
    (lookup_is_timed after .fragment "raw" (apart.mono (by decide +kernel))).trans
      (by decide +kernel)⟩
end Overlay
