import Overlay.Proofs.Expiry
import Overlay.Proofs.LookupEffects
import Overlay.Proofs.StoreEntries

/-! What an eviction takes away and what it reports. The entries that go are known by name before it
begins, and each of them is one deletion, so their number is the number reported and what lies under
every other name stays, with its octets and its stamp. Afterwards no more is listed than before, and
of that nothing has expired or nothing can be deleted, so a second eviction at the same time has
nothing to do. Nothing is asked of names and octets: what the cache cannot have put there goes by its
stamp like everything else. -/
namespace Overlay
open EntryStore (entry)

namespace Deletions
variable {σ : Type} [Store σ]

theorem failing {store after : FaultyStore σ} {gone : List String}
    (deletions : Deletions store gone after) : after.failing = store.failing := by
  induction deletions with
  | nil => rfl
  | cons deleted _ ih => exact ih.trans (FaultyStore.failing_of_delete deleted)

variable [EntryStore σ] {store after : σ} {gone : List String}

/-- What is deleted lies there no more, and everything else lies where it was. -/
theorem entry_eq (deletions : Deletions store gone after) (key : String) :
    entry after key = if key ∈ gone then none else entry store key := by
  induction deletions with
  | nil => rw [if_neg List.not_mem_nil]
  | @cons _ _ _ first rest deleted _ ih =>
    rw [ih, EntryStore.delete_entry deleted]
    by_cases later : key ∈ rest
    · rw [if_pos later, if_pos (List.mem_cons_of_mem _ later)]
    · rw [if_neg later]
      simp only [List.mem_cons, later, or_false]

/-- No more is listed after deletions. -/
theorem listed {keys left : List String} {key : String} (deletions : Deletions store gone after)
    (before : Store.keys store = .ok keys) (afterwards : Store.keys after = .ok left)
    (member : key ∈ left) : key ∈ keys := by
  rw [EntryStore.keys_entry before]
  have there := (EntryStore.keys_entry afterwards key).mp member
  rw [deletions.entry_eq] at there
  split at there
  · cases there
  · exact there

end Deletions

namespace Cache

/-- As many entries leave memory as have to. -/
theorem size_dropOldest_le (count : Nat) (memory : Table String Artifact) :
    (dropOldest count memory).size ≤ memory.size - count := by
  induction count generalizing memory with
  | zero => exact Nat.le_refl _
  | succ count ih =>
    rw [dropOldest]
    split
    · rename_i nothing
      cases listed : memory.entries with
      | nil => simp [Table.size, listed]
      | cons head rest =>
        obtain ⟨first, chosen⟩ := first?_cons head rest
        rw [listed, chosen] at nothing
        cases nothing
    · rename_i first chosen
      have fewer := Table.size_erase_lt (first?_least chosen).1
      have left := ih (memory.erase first.1)
      omega

variable {σ : Type} [Store σ]

/-- What is expired and what is trimmed have nothing to do with each other. -/
theorem evict_eq (cache : Cache σ) (now : Millis) :
    cache.evict now =
      (⟨(cache.expire now cache.persistentKeys).1,
          cache.memory.size - cache.policy.memoryCapacity⟩,
        { (cache.expire now cache.persistentKeys).2 with
          memory := dropOldest (cache.memory.size - cache.policy.memoryCapacity) cache.memory }) := by
  simp only [evict, trim, expire_memory, expire_policy]

/-- After an eviction memory is within its capacity. -/
theorem evict_memory_size_le (cache : Cache σ) (now : Millis) :
    (cache.evict now).2.memory.size ≤ cache.policy.memoryCapacity := by
  have left := size_dropOldest_le (cache.memory.size - cache.policy.memoryCapacity) cache.memory
  rw [evict_eq]
  dsimp only
  omega

theorem mem_persistentKeys {cache : Cache σ} {key : String} :
    key ∈ cache.persistentKeys ↔ ∃ keys, Store.keys cache.store = .ok keys ∧ key ∈ keys := by
  unfold persistentKeys
  cases Store.keys cache.store <;> simp

/-- Where nothing is listed nothing is deleted. -/
theorem evict_unlisted {cache : Cache σ} {fault : StoreError}
    (unlisted : Store.keys cache.store = .error fault) (now : Millis) :
    (cache.evict now).2.store = cache.store := by
  have nothing : cache.persistentKeys = [] := by rw [persistentKeys, unlisted]
  rw [evict_store, nothing]
  rfl

variable [EntryStore σ]

/-- What expires is there. -/
theorem Expires.entry_isSome {cache : Cache σ} {now : Millis} {keys : List String} {key : String}
    (expires : cache.Expires now keys key) : (entry cache.store key).isSome = true := by
  obtain ⟨stamp, told, -⟩ := isExpired_iff_stamp.mp expires.expired
  have known := EntryStore.modified_entry told
  cases held : entry cache.store key with
  | some node => rfl
  | none =>
    rw [held] at known
    cases known

/-- Nothing is left to expire after an eviction. -/
theorem not_expires_after_evict (cache : Cache σ) (now : Millis) (key : String) :
    ¬ (cache.evict now).2.Expires now (cache.evict now).2.persistentKeys key := by
  obtain ⟨gone, -, members, -, deletions⟩ := cache.expire_deletions now cache.persistentKeys
  rw [← evict_store] at deletions
  intro expires
  obtain ⟨left, afterwards, member⟩ := mem_persistentKeys.mp expires.listed
  have kept : key ∉ gone := by
    intro listed
    have there := expires.entry_isSome
    rw [deletions.entry_eq, if_pos listed] at there
    cases there
  -- What stays is listed, stamped and deletable as before, so it would have gone.
  have again := expires.of_same (cache.evict_policy now) (deletions.same kept)
  refine kept ((members key).mpr ⟨?_, again.expired, again.deletable⟩)
  cases before : Store.keys cache.store with
  | ok keys =>
    exact mem_persistentKeys.mpr ⟨keys, before, deletions.listed before afterwards member⟩
  | error fault =>
    rw [evict_unlisted before, before] at afterwards
    cases afterwards

/-- A second eviction at the same time has nothing to do. -/
theorem evict_again (cache : Cache σ) (now : Millis) :
    ((cache.evict now).2.evict now).1 = ⟨0, 0⟩ := by
  obtain ⟨gone, -, members, count, -⟩ :=
    (cache.evict now).2.expire_deletions now (cache.evict now).2.persistentKeys
  have nothing : gone = [] := List.eq_nil_iff_forall_not_mem.mpr fun key listed =>
    not_expires_after_evict cache now key ((members key).mp listed)
  have room := cache.evict_memory_size_le now
  rw [evict_eq (cache.evict now).2, count, nothing, evict_policy, Nat.sub_eq_zero_of_le room]
  rfl

end Cache

open Cache in
/-- An eviction takes away exactly the listed entries that have a stamp which is told and lies
further back than the limit, and that can be deleted; they are as many as it reports. Under every
other name the same octets lie with the same stamp, and every call answers as before. If the store
cannot be listed, nothing is deleted. A second eviction at the same time, with the same calls
failing, reports that it has done nothing. -/
theorem eviction_takes_what_has_expired {σ : Type} [Store σ] [EntryStore σ]
    (cache : Cache (FaultyStore σ)) (now : Millis) :
    let report := (cache.evict now).1
    let after := (cache.evict now).2
    (∃ gone : List String, gone.Nodup ∧ report.expiredPersistent = gone.length ∧
      (∀ key, key ∈ gone ↔ (∃ keys, Store.keys cache.store = .ok keys ∧ key ∈ keys) ∧
        (∃ stamp, Store.modified cache.store key = .ok (some stamp) ∧
          cache.policy.maxAge.wholeMillis.toNat < ageAt now stamp) ∧
        (Store.delete cache.store key).isOk = true) ∧
      (∀ key, key ∈ gone ↔
        (entry cache.store key).isSome = true ∧ entry after.store key = none) ∧
      ∀ key, key ∉ gone →
        entry after.store key = entry cache.store key ∧ SameEntry key after.store cache.store) ∧
    (∀ fault, Store.keys cache.store = .error fault → after.store = cache.store) ∧
    after.store.failing = cache.store.failing ∧
    (after.evict now).1 = ⟨0, 0⟩ := by
  intro report after
  obtain ⟨gone, distinct, members, count, deletions⟩ :=
    cache.expire_deletions now cache.persistentKeys
  have left : ∀ key, entry after.store key = if key ∈ gone then none else entry cache.store key :=
    deletions.entry_eq
  refine ⟨⟨gone, distinct, count, fun key => ?_, fun key => ?_, fun key kept => ?_⟩,
    fun fault unlisted => evict_unlisted unlisted now, deletions.failing, cache.evict_again now⟩
  · rw [members, ← mem_persistentKeys, ← isExpired_iff_stamp]
    exact ⟨fun ⟨listed, expired, deletable⟩ => ⟨listed, expired, deletable⟩,
      fun ⟨listed, expired, deletable⟩ => ⟨listed, expired, deletable⟩⟩
  · rw [left]
    by_cases listed : key ∈ gone
    · exact iff_of_true listed ⟨((members key).mp listed).entry_isSome, if_pos listed⟩
    · refine iff_of_false listed ?_
      rintro ⟨there, lost⟩
      rw [if_neg listed] at lost
      rw [lost] at there
      cases there
  · exact ⟨by rw [left, if_neg kept], deletions.same kept⟩

/-- A listing that cannot be read and cannot be written, with names that are no keys. -/
private def attended : Cache (FaultyStore MemoryStore) :=
  let entries : Table String MemoryEntry := ⟨[("../left", ⟨[0xFF], 5999⟩), ("edge", ⟨[], 6000⟩),
    ("future", ⟨[0x7B], 9000⟩), ("old", ⟨[], 1000⟩)]⟩
  { policy := { maxAge := ⟨1, 0⟩ }, store := ⟨⟨entries⟩, [.get, .put]⟩ }

/-- Under a limit of one second the entry that is as old as that stays and the one that is a
millisecond older goes, under a name that no cache has given it. -/
theorem eviction_takes_what_has_expired_by_a_millisecond :
    (attended.evict 7000).1.expiredPersistent = 2 ∧
      entry (attended.evict 7000).2.store "../left" = none ∧
      entry (attended.evict 7000).2.store "edge" = some (.file [] 6000) ∧
      ((attended.evict 7000).2.evict 7000).1 = ⟨0, 0⟩ := by
  obtain ⟨⟨gone, -, -, members, lost, kept⟩, -, -, again⟩ :=
    eviction_takes_what_has_expired attended 7000
  have goes : "../left" ∈ gone :=
    (members _).mpr ⟨⟨_, rfl, by decide⟩, ⟨5999, rfl, by decide⟩, rfl⟩
  have stays : "edge" ∉ gone := by
    intro listed
    obtain ⟨-, ⟨stamp, told, older⟩, -⟩ := (members _).mp listed
    cases told
    exact absurd older (by decide)
  exact ⟨by decide, ((lost _).mp goes).2, (kept _ stays).1, again⟩

end Overlay
