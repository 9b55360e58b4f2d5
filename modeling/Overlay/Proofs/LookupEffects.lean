import Overlay.Proofs.Retention
import Overlay.Proofs.StoreFrames

/-! What a lookup does besides answering. It calls the store to change it once at most, to delete
the entry that it could not serve, and it does that only if it answers nothing. So all that it can
take away lies under its own key, and asking again learns nothing new: an entry that was promoted is
still found, in memory or where it came from, and one that was missed is gone from memory and is
either gone from the store as well or no better than before. -/
namespace Overlay

/-- Which calls fail is not changed by a deletion. -/
theorem FaultyStore.failing_of_delete {σ : Type} [Store σ] {store after : FaultyStore σ}
    {key : String} (deleted : Store.delete store key = .ok after) :
    after.failing = store.failing := by
  obtain ⟨inner, -, rfl⟩ := map_ok (guarded_ok deleted)
  rfl

namespace Cache
open LawfulStore (held)
variable {σ : Type} [Store σ]

/-- Dropping an entry deletes it or does nothing. -/
theorem dropPersistent_store (cache : Cache σ) (key : String) :
    Store.delete cache.store key = .ok (cache.dropPersistent key).store ∨
      (Store.delete cache.store key).isOk = false ∧
        (cache.dropPersistent key).store = cache.store := by
  unfold dropPersistent
  split
  · rename_i deleted
    exact .inl deleted
  · rename_i kept
    rw [kept]
    exact .inr ⟨rfl, rfl⟩

variable {cache : Cache σ} {now : Millis} {stage : Stage} {source : String}

/-- A lookup that answers leaves the store as it is. -/
theorem lookup_served_store (served : (cache.lookup now stage source).1 ≠ none) :
    (cache.lookup now stage source).2.store = cache.store := by
  have outcome := cache.lookup_outcome now stage source
  generalize (cache.lookup now stage source).1 = answer at outcome served
  generalize (cache.lookup now stage source).2 = after at outcome ⊢
  cases outcome with
  | remembered => rfl
  | promoted => rfl
  | missing => exact absurd rfl served
  | dropped => exact absurd rfl served

/-- A lookup that answers nothing forgets its key. -/
theorem lookup_missed_memory (missed : (cache.lookup now stage source).1 = none) :
    (cache.lookup now stage source).2.memory = cache.memory.erase (cacheKey stage source) := by
  have outcome := cache.lookup_outcome now stage source
  rw [missed] at outcome
  generalize (cache.lookup now stage source).2 = after at outcome ⊢
  cases outcome with
  | missing => rfl
  | dropped => exact dropPersistent_memory ..

/-- A lookup deletes the entry under its key or leaves the store as it is. -/
theorem lookup_store (cache : Cache σ) (now : Millis) (stage : Stage) (source : String) :
    Store.delete cache.store (cacheKey stage source) =
        .ok (cache.lookup now stage source).2.store ∨
      (cache.lookup now stage source).2.store = cache.store := by
  have outcome := cache.lookup_outcome now stage source
  generalize (cache.lookup now stage source).1 = answer at outcome
  generalize (cache.lookup now stage source).2 = after at outcome ⊢
  cases outcome with
  | remembered => exact .inr rfl
  | promoted => exact .inr rfl
  | missing => exact .inr rfl
  | dropped =>
    exact (dropPersistent_store (cache.forget _) _).imp_right And.right

/-- If a lookup answers nothing, the store alone has no answer either. -/
theorem persistedAnswer_of_missed (missed : (cache.lookup now stage source).1 = none) :
    cache.persistedAnswer now stage source = none := by
  unfold persistedAnswer
  split
  · rename_i artifact known
    have stale : ¬ cache.isFresh artifact (fingerprint source) now = true := fun fresh =>
      lookup_of_persisted known fresh missed
    rw [if_neg stale]
  · rfl

variable [LawfulStore σ]

/-- What the store says it does not have is not there. -/
theorem held_of_missing {key : String} (absent : cache.persisted key = .missing) :
    held cache.store key = none := by
  unfold persisted at absent
  split at absent
  · cases absent
  · rename_i got
    exact LawfulStore.get_held got
  · split at absent <;> cases absent

/-- Of a lookup that answers nothing no entry is left in the store if it can be deleted. -/
theorem lookup_missed_store (missed : (cache.lookup now stage source).1 = none)
    (deletable : (Store.delete cache.store (cacheKey stage source)).isOk = true) :
    held (cache.lookup now stage source).2.store (cacheKey stage source) = none := by
  have outcome := cache.lookup_outcome now stage source
  rw [missed] at outcome
  generalize (cache.lookup now stage source).2 = after at outcome ⊢
  cases outcome with
  | missing _ absent => exact held_of_missing absent
  | dropped =>
    rcases dropPersistent_store (cache.forget (cacheKey stage source)) (cacheKey stage source) with
      deleted | ⟨refused, -⟩
    · rw [LawfulStore.delete_held deleted, if_pos rfl]
    · change (Store.delete cache.store _).isOk = false at refused
      rw [deletable] at refused
      cases refused

/-- The same lookup at the same time has the same answer. -/
theorem lookup_again (cache : Cache σ) (now : Millis) (stage : Stage) (source : String) :
    ((cache.lookup now stage source).2.lookup now stage source).1 =
      (cache.lookup now stage source).1 := by
  have policy := cache.lookup_policy now stage source
  have outcome := cache.lookup_outcome now stage source
  cases answered : (cache.lookup now stage source).1 with
  | none =>
    have forgotten : (cache.lookup now stage source).2.memory.get? (cacheKey stage source) =
        none := by
      rw [lookup_missed_memory answered, Table.get?_erase_self]
    rcases cache.lookup_store now stage source with deleted | same
    · refine lookup_vacant forgotten ?_
      rw [LawfulStore.delete_held deleted, if_pos rfl]
    · rw [lookup_forgotten forgotten, persistedAnswer_congr policy same,
        persistedAnswer_of_missed answered]
  | some compiled =>
    rw [answered] at outcome
    generalize (cache.lookup now stage source).2 = after at outcome policy ⊢
    cases outcome with
    | remembered found fresh => exact lookup_remembered found fresh
    | @promoted artifact _ known fresh =>
      generalize promoted : (cache.forget (cacheKey stage source)).promote
        (cacheKey stage source) artifact = after at policy ⊢
      have store : after.store = cache.store := by
        rw [← promoted]
        rfl
      cases found : after.memory.get? (cacheKey stage source) with
      | some other =>
        -- What memory holds under the key can only be what has just been put there.
        obtain rfl : artifact = other := by
          rw [← promoted] at found
          have inserted := trim_found found
          rw [Table.get?_insert_self] at inserted
          exact Option.some.inj inserted
        refine lookup_remembered found ?_
        rw [isFresh, policy]
        exact fresh
      | none =>
        -- The promoted entry was trimmed at once, but the store still has it.
        rw [lookup_forgotten found, persistedAnswer_congr policy store]
        simp only [persistedAnswer, known, fresh, if_true]

end Cache

variable {σ : Type} [Store σ] [FramedStore σ]

/-- A lookup concerns its own key alone. If it answers nothing, memory has lost that key and nothing
else, and the entry is gone from the store if it could be deleted. If it answers, the store is as it
was. Entries under other keys are what they were, for every call that can be made, and the same
lookup at the same time, with the same calls failing, has the same answer. -/
theorem lookup_concerns_its_key (cache : Cache (FaultyStore σ)) (now : Millis) (stage : Stage)
    (source : String) :
    let key := cacheKey stage source
    let answer := (cache.lookup now stage source).1
    let after := (cache.lookup now stage source).2
    (answer = none →
      after.memory = cache.memory.erase key ∧ after.memory.get? key = none ∧
        ((Store.delete cache.store key).isOk = true →
          LawfulStore.held after.store key = none)) ∧
      (answer ≠ none → after.store = cache.store) ∧
      (∀ probe, probe ≠ key → SameEntry probe after.store cache.store) ∧
      after.store.failing = cache.store.failing ∧
      (after.lookup now stage source).1 = answer := by
  intro key answer after
  refine ⟨fun missed => ?_, Cache.lookup_served_store, fun probe apart => ?_, ?_,
    cache.lookup_again now stage source⟩
  · have memory : after.memory = cache.memory.erase key := Cache.lookup_missed_memory missed
    refine ⟨memory, ?_, Cache.lookup_missed_store missed⟩
    rw [memory, Table.get?_erase_self]
  · rcases cache.lookup_store now stage source with deleted | same
    · exact FramedStore.delete_others deleted apart
    · rw [same]
      exact .refl _ _
  · rcases cache.lookup_store now stage source with deleted | same
    · exact FaultyStore.failing_of_delete deleted
    · rw [same]

/-- A cache that keeps nothing in memory, over a store with an artifact and with octets that are
none. -/
private def halfReadable : Cache (FaultyStore MemoryStore) :=
  let artifact : Artifact := ⟨"one", fingerprint "a", 900, 1⟩
  let readable := (∅ : Table String MemoryEntry).insert (cacheKey .fragment "a")
    ⟨artifact.encode, 900⟩
  let entries := readable.insert (cacheKey .vertex "a") ⟨[0x7B], 900⟩
  { policy := { memoryCapacity := 0 }, store := { store := { entries } } }

/-- The octets that are no artifact go and the artifact next to them stays. It is served, trimmed at
once, and served again. -/
theorem lookup_concerns_its_key_beside_another :
    ∃ cache : Cache (FaultyStore MemoryStore),
      (let after := (cache.lookup 1000 .vertex "a").2;
        after.memory.get? (cacheKey .vertex "a") = none ∧
          LawfulStore.held after.store (cacheKey .vertex "a") = none ∧
          SameEntry (cacheKey .fragment "a") after.store cache.store ∧
          (after.lookup 1000 .vertex "a").1 = none) ∧
        let after := (cache.lookup 1000 .fragment "a").2
        after.store = cache.store ∧ after.memory.size = 0 ∧
          (after.lookup 1000 .fragment "a").1 = some "one" := by
  obtain ⟨misses, deletable, apart, answers, trimmed⟩ :
      (halfReadable.lookup 1000 .vertex "a").1 = none ∧
      (Store.delete halfReadable.store (cacheKey .vertex "a")).isOk = true ∧
      cacheKey .fragment "a" ≠ cacheKey .vertex "a" ∧
      (halfReadable.lookup 1000 .fragment "a").1 = some "one" ∧
      (halfReadable.lookup 1000 .fragment "a").2.memory.size = 0 := by
    decide +kernel
  obtain ⟨missed, -, others, -, again⟩ := lookup_concerns_its_key halfReadable 1000 .vertex "a"
  obtain ⟨-, served, -, -, same⟩ := lookup_concerns_its_key halfReadable 1000 .fragment "a"
  obtain ⟨-, forgotten, gone⟩ := missed misses
  have unchanged := served (by rw [answers]; exact nofun)
  exact ⟨halfReadable, ⟨forgotten, gone deletable, others _ apart, again.trans misses⟩, unchanged,
    trimmed, same.trans answers⟩

end Overlay
