import Overlay.Proofs.ArtifactCodec
import Overlay.Proofs.CacheTiers
import Overlay.Proofs.StoreContract

/-! What is known of every entry of a cache, in memory and in the store at once. An entry of the
store counts by the artifact it is read as, so octets that are no artifact need no provenance: they
are never served. No operation invents an entry, and the one that records adds just one; a lookup
answers with an entry of one of the two tiers. This holds whichever calls of the store fail. -/
namespace Overlay.Cache
open LawfulStore (held)
variable {σ : Type} [Store σ] [LawfulStore σ]

/-- Every entry of both tiers is as described. -/
structure Holds (describes : String → Artifact → Prop) (cache : Cache σ) : Prop where
  memory {key : String} {artifact : Artifact} :
    cache.memory.get? key = some artifact → describes key artifact
  store {key : String} {content : Bytes} {artifact : Artifact} :
    held cache.store key = some content → Artifact.decode? content = some artifact →
      describes key artifact

variable {describes : String → Artifact → Prop} {cache : Cache σ}

theorem Holds.mono {more : String → Artifact → Prop} (holds : cache.Holds describes)
    (weaker : ∀ key artifact, describes key artifact → more key artifact) : cache.Holds more :=
  ⟨fun found => weaker _ _ (holds.memory found),
    fun found read => weaker _ _ (holds.store found read)⟩

/-- A cache with no more in either tier is described by the same. -/
theorem Holds.shrink {after : Cache σ} (holds : cache.Holds describes)
    (memory : ∀ key artifact, after.memory.get? key = some artifact →
      cache.memory.get? key = some artifact)
    (store : ∀ key content, held after.store key = some content →
      held cache.store key = some content) : after.Holds describes :=
  ⟨fun found => holds.memory (memory _ _ found), fun found => holds.store (store _ _ found)⟩

/-- A cache with nothing in memory over a store that holds nothing is described by anything. -/
theorem holds_empty {policy : CachePolicy} {store : σ} (empty : ∀ key, held store key = none) :
    Holds describes ({ policy, store } : Cache σ) := by
  refine ⟨fun found => ?_, fun found _ => ?_⟩
  · simp at found
  · rw [empty] at found
    cases found

theorem Holds.forget (holds : cache.Holds describes) (key : String) :
    (cache.forget key).Holds describes :=
  holds.shrink (fun _ _ found => (Table.get?_of_get?_erase found).2) (fun _ _ found => found)

theorem Holds.trim (holds : cache.Holds describes) : cache.trim.2.Holds describes :=
  holds.shrink (fun _ _ found => trim_found found) (fun _ _ found => found)

/-- What a deletion leaves in the store was there before. -/
theorem held_of_dropPersistent {key probe : String} {content : Bytes}
    (found : held (cache.dropPersistent key).store probe = some content) :
    held cache.store probe = some content := by
  unfold dropPersistent at found
  split at found
  · rename_i deleted
    rw [LawfulStore.delete_held deleted] at found
    split at found
    · cases found
    · exact found
  · exact found

theorem Holds.dropPersistent (holds : cache.Holds describes) (key : String) :
    (cache.dropPersistent key).Holds describes :=
  holds.shrink (fun _ _ found => by rwa [dropPersistent_memory] at found)
    (fun _ _ found => held_of_dropPersistent found)

theorem Holds.promote {key : String} {artifact : Artifact} (holds : cache.Holds describes)
    (described : describes key artifact) : (cache.promote key artifact).Holds describes := by
  apply Holds.trim
  refine ⟨fun found => ?_, holds.store⟩
  rw [Table.get?_insert] at found
  split at found
  · subst_vars
    cases found
    exact described
  · exact holds.memory found

theorem held_of_persisted {key : String} {artifact : Artifact}
    (known : cache.persisted key = .held artifact) :
    ∃ content, held cache.store key = some content ∧ Artifact.decode? content = some artifact := by
  unfold persisted at known
  split at known
  · cases known
  · cases known
  · rename_i content got
    split at known
    · rename_i read
      cases known
      exact ⟨content, LawfulStore.get_held got, read⟩
    · cases known

/-- A persisted artifact is described like every other entry. -/
theorem Holds.persisted {key : String} {artifact : Artifact} (holds : cache.Holds describes)
    (known : cache.persisted key = .held artifact) : describes key artifact := by
  obtain ⟨content, found, read⟩ := held_of_persisted known
  exact holds.store found read

/-- A lookup that answers serves a fresh entry that was in one of the two tiers. -/
theorem Holds.served {now : Millis} {stage : Stage} {source compiled : String}
    (holds : cache.Holds describes)
    (answered : (cache.lookup now stage source).1 = some compiled) :
    ∃ artifact, describes (cacheKey stage source) artifact ∧
      artifact.compiledSource = compiled ∧
      cache.isFresh artifact (fingerprint source) now = true := by
  have outcome := cache.lookup_outcome now stage source
  rw [answered] at outcome
  generalize (cache.lookup now stage source).2 = after at outcome
  generalize cacheKey stage source = key at outcome ⊢
  cases outcome with
  | remembered found fresh => exact ⟨_, holds.memory found, rfl, fresh⟩
  | promoted unserved found fresh => exact ⟨_, holds.persisted found, rfl, fresh⟩

theorem Holds.lookup (holds : cache.Holds describes) (now : Millis) (stage : Stage)
    (source : String) : (cache.lookup now stage source).2.Holds describes := by
  have outcome := cache.lookup_outcome now stage source
  generalize (cache.lookup now stage source).1 = answer at outcome
  generalize (cache.lookup now stage source).2 = after at outcome ⊢
  cases outcome with
  | remembered found fresh => exact holds
  | promoted unserved found fresh => exact (holds.forget _).promote (holds.persisted found)
  | missing unserved absent => exact holds.forget _
  | dropped unserved present stale => exact (holds.forget _).dropPersistent _

/-- Recording adds one entry, to one tier or to both. -/
theorem Holds.record {now : Millis} {stage : Stage} {source compiled : String}
    (holds : cache.Holds describes)
    (described : describes (cacheKey stage source)
      ⟨compiled, fingerprint source, now, cache.policy.schemaVersion⟩) :
    (cache.record now stage source compiled).Holds describes := by
  apply Holds.trim
  change describes (keyFor stage (fingerprint source)) _ at described
  generalize keyFor stage (fingerprint source) = key at described ⊢
  refine ⟨fun found => ?_, fun found read => ?_⟩
  · rw [persist_memory, Table.get?_insert] at found
    split at found
    · subst_vars
      cases found
      exact described
    · exact holds.memory found
  · unfold persist at found
    split at found
    · rename_i put
      rw [LawfulStore.put_held put] at found
      split at found
      · subst_vars
        cases found
        rw [Artifact.decode?_encode] at read
        cases read
        exact described
      · exact holds.store found read
    · exact holds.store found read

/-- Expiry leaves in the store only what was there. -/
theorem held_of_expire {now : Millis} {keys : List String} {probe : String} {content : Bytes}
    (found : held (cache.expire now keys).2.store probe = some content) :
    held cache.store probe = some content := by
  induction keys generalizing cache with
  | nil => exact found
  | cons key keys ih =>
    simp only [expire] at found
    split at found
    · split at found
      · rename_i deleted
        have left := ih found
        rw [LawfulStore.delete_held deleted] at left
        split at left
        · cases left
        · exact left
      · exact ih found
    · exact ih found

theorem Holds.evict (holds : cache.Holds describes) (now : Millis) :
    (cache.evict now).2.Holds describes := by
  apply Holds.trim
  exact holds.shrink (fun _ _ found => by rwa [expire_memory] at found)
    (fun _ _ found => held_of_expire found)

/-- A cache opened anew has in its store what was there, and nothing in memory. -/
theorem Holds.reopen (holds : cache.Holds describes) (policy : CachePolicy) (now : Millis) :
    (start policy cache.store now).Holds describes := by
  apply Holds.evict
  exact holds.shrink (fun _ _ found => by simp at found) (fun _ _ found => found)

private theorem dropAll_holds (keys : List String) (holds : cache.Holds describes) :
    (keys.foldl Cache.dropPersistent cache).Holds describes := by
  induction keys generalizing cache with
  | nil => exact holds
  | cons key keys ih => exact ih (holds.dropPersistent key)

theorem Holds.clear (holds : cache.Holds describes) : cache.clear.Holds describes :=
  dropAll_holds _ (holds.shrink (fun _ _ found => by simp at found) (fun _ _ found => found))

/-! ### The store alone -/

theorem held_of_lookup {now : Millis} {stage : Stage} {source probe : String} {content : Bytes}
    (found : held (cache.lookup now stage source).2.store probe = some content) :
    held cache.store probe = some content := by
  have outcome := cache.lookup_outcome now stage source
  generalize (cache.lookup now stage source).1 = answer at outcome
  generalize (cache.lookup now stage source).2 = after at outcome found
  cases outcome with
  | remembered => exact found
  | promoted => exact found
  | missing => exact found
  | dropped =>
    have left : held (cache.forget (cacheKey stage source)).store probe = some content :=
      held_of_dropPersistent found
    exact left

theorem held_of_reopen {policy : CachePolicy} {now : Millis} {probe : String} {content : Bytes}
    (found : held (start policy cache.store now).store probe = some content) :
    held cache.store probe = some content := by
  have left : held ({ policy, store := cache.store } : Cache σ).store probe = some content :=
    held_of_expire found
  exact left

private theorem held_of_dropAll {keys : List String} {probe : String} {content : Bytes}
    (found : held (keys.foldl Cache.dropPersistent cache).store probe = some content) :
    held cache.store probe = some content := by
  induction keys generalizing cache with
  | nil => exact found
  | cons key keys ih => exact held_of_dropPersistent (ih found)

theorem held_of_clear {probe : String} {content : Bytes}
    (found : held cache.clear.store probe = some content) :
    held cache.store probe = some content := by
  have left : held ({ cache with memory := ∅ } : Cache σ).store probe = some content :=
    held_of_dropAll found
  exact left

end Overlay.Cache
