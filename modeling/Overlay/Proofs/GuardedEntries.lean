import Overlay.Proofs.Building
import Overlay.Proofs.CacheKeys
import Overlay.Proofs.CacheTiers

/-! One entry of a store, and the cache around it. A cache deletes and writes under many keys and puts
up with calls that fail, but it deletes an entry only when it has read it as stale or found its stamp
expired, and writes one only after it has missed it. So an entry that can be read, is fresh, and has
not been written too long ago stays through whatever a cache or a manager does, except clearing. The
store enters through a condition of its own choosing that only calls under the key of the entry can
end. -/
namespace Overlay

/-- A condition on stores under which an entry is there: it is read as an artifact of some kind, its
stamp is no earlier than some reading, and successful calls under other keys keep the condition. -/
structure Guards {σ : Type} [Store σ] (key : String) (since : Millis) (kind : Artifact → Prop)
    (holds : σ → Prop) : Prop where
  read {store : σ} : holds store → ∃ content artifact,
    Store.get store key = .ok (some content) ∧ Artifact.decode? content = some artifact ∧
      kind artifact
  stamped {store : σ} {reading : Millis} : holds store →
    Store.modified store key = .ok (some reading) → since.toNat ≤ reading.toNat
  put {store after : σ} {now : Millis} {other : String} {content : Bytes} : holds store →
    other ≠ key → Store.put store now other content = .ok after → holds after
  delete {store after : σ} {other : String} : holds store →
    other ≠ key → Store.delete store other = .ok after → holds after

/-- A condition on stores that every call that succeeds keeps. -/
structure Lasts {σ : Type} [Store σ] (holds : σ → Prop) : Prop where
  put {store after : σ} {now : Millis} {key : String} {content : Bytes} : holds store →
    Store.put store now key content = .ok after → holds after
  delete {store after : σ} {key : String} : holds store →
    Store.delete store key = .ok after → holds after

namespace Lasts
variable {σ : Type} [Store σ] {holds : σ → Prop} {cache : Cache σ}

theorem lookup (lasts : Lasts holds) (held : holds cache.store) (now : Millis) (stage : Stage)
    (source : String) : holds (cache.lookup now stage source).2.store := by
  have outcome := cache.lookup_outcome now stage source
  generalize (cache.lookup now stage source).1 = answer at outcome
  generalize (cache.lookup now stage source).2 = after at outcome ⊢
  cases outcome with
  | remembered => exact held
  | promoted => exact held
  | missing => exact held
  | dropped =>
    unfold Cache.dropPersistent
    split
    · rename_i deleted
      exact lasts.delete held deleted
    · exact held

theorem record (lasts : Lasts holds) (held : holds cache.store) (now : Millis) (stage : Stage)
    (source compiled : String) : holds (cache.record now stage source compiled).store := by
  unfold Cache.record
  rw [Cache.trim_store, Cache.persist]
  split
  · rename_i put
    exact lasts.put held put
  · exact held

theorem expire (lasts : Lasts holds) (held : holds cache.store) (now : Millis)
    (keys : List String) : holds (cache.expire now keys).2.store := by
  induction keys generalizing cache with
  | nil => exact held
  | cons key keys ih =>
    rw [Cache.expire]
    split
    · split
      · rename_i deleted
        exact ih (lasts.delete held deleted)
      · exact ih held
    · exact ih held

theorem start (lasts : Lasts holds) {store : σ} (held : holds store) (policy : CachePolicy)
    (now : Millis) : holds (Cache.start policy store now).store := by
  have bare : holds (Cache.mk policy ∅ store).store := held
  exact lasts.expire bare now _

/-- Resolving asks the cache and records at most. -/
theorem resolve (lasts : Lasts holds) (held : holds cache.store) (manager : Manager) (disk : Disk)
    (now : Millis) (name : String) :
    holds (manager.resolve cache disk now name).2.2.store := by
  rw [Manager.resolve_eq]
  generalize (manager.fragmentSource disk name).1 = source
  have looked := lasts.lookup held now .fragment source
  rcases manager.compileFragment_cache cache now source with same | ⟨compiled, -, -, recorded⟩
  · rw [same]
    exact looked
  · rw [recorded]
    exact lasts.record looked now .fragment source compiled

end Lasts

/-- What a policy keeps at a reading: artifacts of the kind serve the source, and what was written
since some reading has not outlived the limit. -/
structure CachePolicy.Spares (policy : CachePolicy) (now since : Millis) (source : String)
    (kind : Artifact → Prop) : Prop where
  fresh {artifact : Artifact} : kind artifact →
    artifact.isValidFor (fingerprint source) policy.schemaVersion now policy.maxAge = true
  recent : ageAt now since ≤ policy.maxAge.wholeMillis.toNat

namespace Guards
variable {σ : Type} [Store σ] {source : String} {since now : Millis} {kind : Artifact → Prop}
  {holds : σ → Prop} {cache : Cache σ}

/-! ### The cache -/

theorem persisted (guards : Guards (cacheKey .fragment source) since kind holds)
    (held : holds cache.store) :
    ∃ artifact, cache.persisted (cacheKey .fragment source) = .held artifact ∧ kind artifact := by
  obtain ⟨content, artifact, got, read, ofKind⟩ := guards.read held
  refine ⟨artifact, ?_, ofKind⟩
  rw [Cache.persisted, got]
  simp only [read]

/-- A lookup under the key finds what is there. -/
theorem answers (guards : Guards (cacheKey .fragment source) since kind holds)
    (held : holds cache.store) (spares : cache.policy.Spares now since source kind)
    {stage : Stage} {text : String} (same : cacheKey stage text = cacheKey .fragment source) :
    (cache.lookup now stage text).1 ≠ none := by
  obtain ⟨artifact, known, ofKind⟩ := guards.persisted held
  rw [← same] at known
  refine Cache.lookup_of_persisted known ?_
  rw [(cacheKey_eq_iff.mp same).2]
  exact spares.fresh ofKind

theorem dropPersistent (guards : Guards (cacheKey .fragment source) since kind holds)
    (held : holds cache.store) {other : String} (apart : other ≠ cacheKey .fragment source) :
    holds (cache.dropPersistent other).store := by
  unfold Cache.dropPersistent
  split
  · exact guards.delete held apart ‹_›
  · exact held

/-- A lookup drops only what is not fresh. -/
theorem lookup (guards : Guards (cacheKey .fragment source) since kind holds)
    (held : holds cache.store) (spares : cache.policy.Spares now since source kind)
    (stage : Stage) (text : String) : holds (cache.lookup now stage text).2.store := by
  have outcome := cache.lookup_outcome now stage text
  have answered : cacheKey stage text = cacheKey .fragment source →
    (cache.lookup now stage text).1 ≠ none := guards.answers held spares
  generalize (cache.lookup now stage text).1 = answer at outcome answered
  generalize (cache.lookup now stage text).2 = after at outcome ⊢
  cases outcome with
  | remembered => exact held
  | promoted => exact held
  | missing => exact held
  | dropped =>
    have forgotten : holds (cache.forget (cacheKey stage text)).store := held
    exact guards.dropPersistent forgotten fun same => answered same rfl

theorem record (guards : Guards (cacheKey .fragment source) since kind holds)
    (held : holds cache.store) {stage : Stage} {text : String}
    (apart : cacheKey stage text ≠ cacheKey .fragment source) (compiled : String) :
    holds (cache.record now stage text compiled).store := by
  unfold Cache.record
  rw [Cache.trim_store, Cache.persist]
  split
  · exact guards.put held apart ‹_›
  · exact held

/-- Expiry takes away only what has outlived the limit. -/
theorem expire (guards : Guards (cacheKey .fragment source) since kind holds)
    (held : holds cache.store) (spares : cache.policy.Spares now since source kind)
    (keys : List String) : holds (cache.expire now keys).2.store := by
  induction keys generalizing cache with
  | nil => exact held
  | cons key keys ih =>
    rw [Cache.expire]
    split
    · rename_i expired
      have apart : key ≠ cacheKey .fragment source := by
        rintro rfl
        unfold Cache.isExpired at expired
        split at expired
        · rename_i reading asked
          have later := guards.stamped held asked
          have recent := spares.recent
          unfold ageAt at recent expired
          rw [decide_eq_true_eq] at expired
          omega
        · cases expired
      split
      · exact ih (guards.delete held apart ‹_›) spares
      · exact ih held spares
    · exact ih held spares

theorem start (guards : Guards (cacheKey .fragment source) since kind holds) {store : σ}
    (held : holds store) {policy : CachePolicy} (spares : policy.Spares now since source kind) :
    holds (Cache.start policy store now).store := by
  have bare : holds (Cache.mk policy ∅ store).store := held
  exact guards.expire bare spares _

/-! ### A manager that uses the cache -/

/-- What is compiled and recorded was missed before, so it does not lie under the key. -/
theorem compileFragment (guards : Guards (cacheKey .fragment source) since kind holds)
    (held : holds cache.store) (spares : cache.policy.Spares now since source kind)
    (manager : Manager) (text : String) :
    holds (manager.compileFragment cache now text).2.2.store := by
  have looked := guards.lookup held spares .fragment text
  rcases manager.compileFragment_cache cache now text with same | ⟨compiled, missed, -, recorded⟩
  · rw [same]
    exact looked
  · rw [recorded]
    exact guards.record looked (fun same => guards.answers held spares same missed) compiled

theorem resolve (guards : Guards (cacheKey .fragment source) since kind holds)
    (held : holds cache.store) (spares : cache.policy.Spares now since source kind)
    (manager : Manager) (disk : Disk) (name : String) :
    holds (manager.resolve cache disk now name).2.2.store :=
  guards.compileFragment held spares manager _

theorem createProgram (guards : Guards (cacheKey .fragment source) since kind holds)
    (held : holds cache.store) (spares : cache.policy.Spares now since source kind)
    (manager : Manager) (disk : Disk) (name : String) :
    holds (manager.createProgram cache disk now name).2.2.store := by
  rcases manager.createProgram_cases cache disk now name with
    ⟨built, installed, lives, answer⟩ | ⟨dead, answer⟩
  · rw [answer]
    exact held
  · rw [answer, Manager.build_cache]
    exact guards.resolve held spares _ disk name

end Guards
end Overlay
