import Overlay.Proofs.JsonEnds
import Overlay.Proofs.Retention

/-! Writes that were cut off. A directory writes its files in place, so what lies under a key after
a crash may be any beginning of what was to be written. Such a beginning is no artifact, wherever
the cut fell; the lookup that meets it answers nothing and takes it away, and with it gone the key
is as good as one that was never written. -/
namespace Overlay

namespace Artifact

/-- What is left of an artifact's octets when writing them was cut off: the first of them or none,
and not all. -/
def Torn (artifact : Artifact) (bytes : Bytes) : Prop :=
  bytes <+: artifact.encode ∧ bytes ≠ artifact.encode

/-- What is left of an artifact is none. -/
theorem decode?_torn {artifact : Artifact} {bytes : Bytes} (torn : artifact.Torn bytes) :
    decode? bytes = none := by
  obtain ⟨⟨rest, whole⟩, cut⟩ := torn
  have closed := artifact.encode_closed
  have lost : rest ≠ [] := by
    rintro rfl
    exact cut (by simpa using whole)
  have brace : (0x7D : UInt8) ∈ rest := by
    obtain ⟨last, ends⟩ := Option.ne_none_iff_exists'.mp (mt List.getLast?_eq_none_iff.mp lost)
    rw [← whole, List.getLast?_append, ends, Option.some_or] at closed
    cases closed
    exact List.mem_of_getLast? ends
  have document : Json.parse? (bytes ++ rest) = some (.object artifact.members) := by
    rw [whole, parse?_encode]
  have unread : Json.parse? bytes = none := by
    refine Json.parse?_torn document (.object _) ?_
    rw [List.all_eq_false]
    exact ⟨0x7D, brace, by decide⟩
  rw [decode?, unread]
  rfl

/-- The write of every artifact can be cut off in front of its last octet. -/
theorem torn_dropLast (artifact : Artifact) : artifact.Torn artifact.encode.dropLast := by
  refine ⟨List.dropLast_prefix _, fun same => ?_⟩
  have closed := artifact.encode_closed
  have shorter := congrArg List.length same
  rw [List.length_dropLast] at shorter
  have nothing : artifact.encode = [] := List.eq_nil_of_length_eq_zero (by omega)
  rw [nothing] at closed
  cases closed

end Artifact

namespace Cache
open LawfulStore (held)
variable {σ : Type} [Store σ] {cache : Cache σ}

/-! ### A lookup that meets what it cannot read -/

theorem lookup_unreadable {now : Millis} {stage : Stage} {source : String}
    (unserved : cache.Unserved now (fingerprint source) (cacheKey stage source))
    (unreadable : cache.persisted (cacheKey stage source) = .unreadable) :
    cache.lookup now stage source =
      (none, (cache.forget (cacheKey stage source)).dropPersistent (cacheKey stage source)) := by
  have outcome := cache.lookup_outcome now stage source
  generalize cache.lookup now stage source = answered at outcome ⊢
  obtain ⟨answer, after⟩ := answered
  cases outcome with
  | remembered found fresh =>
    rw [unserved _ found] at fresh
    cases fresh
  | promoted _ found =>
    rw [unreadable] at found
    cases found
  | missing _ absent =>
    rw [unreadable] at absent
    cases absent
  | dropped => rfl

theorem dropPersistent_of_deleted {key : String} {store : σ}
    (deleted : Store.delete cache.store key = .ok store) :
    cache.dropPersistent key = { cache with store } := by
  rw [dropPersistent, deleted]

/-- A record reaches one of the tiers: memory has room for it beside what outlasts it, or the store
takes it and can be read afterwards. -/
inductive Lands (cache : Cache σ) (now : Millis) (stage : Stage) (source compiled : String) :
    Prop where
  | remembered (ascending : cache.memory.Ascending)
    (room : outlasting cache.memory
        (cacheKey stage source, recordedArtifact cache.policy source compiled now) <
      cache.policy.memoryCapacity)
  | persisted {written : σ} {found : Option Bytes}
    (put : Store.put cache.store now (cacheKey stage source)
      (recordedArtifact cache.policy source compiled now).encode = .ok written)
    (got : Store.get written (cacheKey stage source) = .ok found)

variable [LawfulStore σ]

/-- Octets that are no artifact cannot be read, whether or not the store gives them. -/
theorem persisted_of_undecoded {key : String} {content : Bytes}
    (lies : held cache.store key = some content) (undecoded : Artifact.decode? content = none) :
    cache.persisted key = .unreadable := by
  unfold persisted
  cases got : Store.get cache.store key with
  | error fault => rfl
  | ok found =>
    obtain rfl : some content = found := lies.symm.trans (LawfulStore.get_held got)
    simp only [undecoded]

/-- What was recorded and has reached a tier is served until it is too old. -/
theorem lookup_landed {recorded now : Millis} {stage : Stage} {source compiled : String}
    (lands : cache.Lands recorded stage source compiled)
    (young : ageAt now recorded ≤ cache.policy.maxAge.wholeMillis.toNat) :
    ((cache.record recorded stage source compiled).lookup now stage source).1 = some compiled := by
  generalize made : cache.record recorded stage source compiled = after
  have policy : after.policy = cache.policy := by rw [← made, record_policy]
  have fresh : after.isFresh (recordedArtifact cache.policy source compiled recorded)
      (fingerprint source) now = true := by
    rw [isFresh_iff, policy]
    exact ⟨rfl, rfl, young⟩
  cases lands with
  | remembered ascending room =>
    have kept := record_get? ascending recorded stage source compiled
    rw [if_pos room, made] at kept
    exact lookup_remembered kept fresh
  | @persisted written content put got =>
    -- Memory may have its copy or not; if it has one, it is the same.
    cases found : after.memory.get? (cacheKey stage source) with
    | some artifact =>
      rw [← made] at found
      rcases record_found found with ⟨-, rfl⟩ | ⟨other, -⟩
      · rw [made] at found
        exact lookup_remembered found fresh
      · exact absurd rfl other
    | none =>
      have store : after.store = written := by rw [← made, record_written put]
      have lies := (LawfulStore.get_held got).symm.trans (LawfulStore.put_held put _)
      rw [if_pos rfl] at lies
      subst lies
      rw [lookup_forgotten found]
      simp only [persistedAnswer, persisted, store, got, Artifact.decode?_encode, fresh, if_true]
      rfl

/-! ### The cache after it -/

/-- One cache is another without what it had of a source: only that entry is gone from the two
tiers, nothing is found for the source until it is recorded again, and then it is served. -/
structure Rid (cache : Cache σ) (stage : Stage) (source : String) (after : Cache σ) : Prop where
  policy : after.policy = cache.policy
  memory : after.memory = cache.memory.erase (cacheKey stage source)
  store : ∀ key, held after.store key =
    if key = cacheKey stage source then none else held cache.store key
  misses : ∀ now, (after.lookup now stage source).1 = none
  serves {recorded now : Millis} {compiled : String} :
    after.Lands recorded stage source compiled →
    ageAt now recorded ≤ after.policy.maxAge.wholeMillis.toNat →
    ((after.record recorded stage source compiled).lookup now stage source).1 = some compiled

theorem rid_of_deleted {stage : Stage} {source : String} {store : σ}
    (deleted : Store.delete cache.store (cacheKey stage source) = .ok store) :
    cache.Rid stage source { cache.forget (cacheKey stage source) with store } where
  policy := rfl
  memory := rfl
  store := LawfulStore.delete_held deleted
  misses now := by
    refine lookup_vacant (Table.get?_erase_self _ _) ?_
    rw [LawfulStore.delete_held deleted, if_pos rfl]
  serves := lookup_landed

end Cache

/-- A write that was cut off is never served. No beginning of an artifact's octets is an artifact;
so a lookup that finds one under its key, and nothing in memory that may be served, answers nothing,
whichever calls fail. When the entry can be deleted it is gone afterwards, and nothing else is: the
next record of the source is served as if nothing had ever happened. -/
theorem torn_writes_are_never_served {σ : Type} [Store σ] [LawfulStore σ] :
    (∀ (artifact : Artifact) (bytes : Bytes), artifact.Torn bytes →
      Artifact.decode? bytes = none) ∧
    ∀ (cache : Cache σ) (now : Millis) (stage : Stage) (source : String) (artifact : Artifact)
      (bytes : Bytes), artifact.Torn bytes →
      LawfulStore.held cache.store (cacheKey stage source) = some bytes →
      cache.Unserved now (fingerprint source) (cacheKey stage source) →
      (cache.lookup now stage source).1 = none ∧
        ((∃ store, Store.delete cache.store (cacheKey stage source) = .ok store) →
          cache.Rid stage source (cache.lookup now stage source).2) := by
  refine ⟨fun artifact bytes => Artifact.decode?_torn, ?_⟩
  intro cache now stage source artifact bytes torn lies unserved
  have unreadable := Cache.persisted_of_undecoded lies (Artifact.decode?_torn torn)
  rw [Cache.lookup_unreadable unserved unreadable]
  refine ⟨rfl, ?_⟩
  rintro ⟨store, deleted⟩
  have taken : (cache.forget (cacheKey stage source)).dropPersistent (cacheKey stage source) =
      { cache.forget (cacheKey stage source) with store } := Cache.dropPersistent_of_deleted deleted
  rw [taken]
  exact Cache.rid_of_deleted deleted

/-- Only the last brace is missing, and memory has an older copy that is too old. -/
theorem torn_writes_are_never_served_without_last_octet :
    ∃ (cache : Cache MemoryStore) (artifact : Artifact),
      artifact.Torn artifact.encode.dropLast ∧
      LawfulStore.held cache.store (cacheKey .fragment "raw") = some artifact.encode.dropLast ∧
      cache.memory.get? (cacheKey .fragment "raw") = some ⟨"old", fingerprint "raw", 3, 1⟩ ∧
      (cache.lookup 14 .fragment "raw").1 = none ∧
      cache.Rid .fragment "raw" (cache.lookup 14 .fragment "raw").2 := by
  let artifact : Artifact := ⟨"new", fingerprint "raw", 9, 1⟩
  let cache : Cache MemoryStore :=
    { policy := { maxAge := ⟨0, 10000000⟩ }
      memory := (∅ : Table String Artifact).insert (cacheKey .fragment "raw")
        ⟨"old", fingerprint "raw", 3, 1⟩
      store := ⟨(∅ : Table String MemoryEntry).insert (cacheKey .fragment "raw")
        ⟨artifact.encode.dropLast, 9⟩⟩ }
  have remembered : cache.memory.get? (cacheKey .fragment "raw") =
      some ⟨"old", fingerprint "raw", 3, 1⟩ := Table.get?_insert_self _ _ _
  have lies : LawfulStore.held cache.store (cacheKey .fragment "raw") =
      some artifact.encode.dropLast :=
    congrArg (Option.map MemoryEntry.content) (Table.get?_insert_self _ _ _)
  have unserved : cache.Unserved 14 (fingerprint "raw") (cacheKey .fragment "raw") := by
    intro old found
    rw [remembered] at found
    cases found
    refine Bool.eq_false_iff.mpr fun fresh => ?_
    exact absurd (Cache.isFresh_iff.mp fresh).2.2 (by decide)
  obtain ⟨missed, rid⟩ := torn_writes_are_never_served.2 cache 14 .fragment "raw" artifact _
    artifact.torn_dropLast lies unserved
  exact ⟨cache, artifact, artifact.torn_dropLast, lies, remembered, missed, rid ⟨_, rfl⟩⟩

end Overlay
