import Overlay.Proofs.Expiry
import Overlay.Proofs.Retention
import Overlay.Settings.Reading

/-! How exact an age limit is. Ages are counted in whole milliseconds, and so is the limit; dropping
what is left of a millisecond loses nothing, for no age has such a rest. But the limit is cut to
sixty-four bits as well, and that does lose something: a limit of 2^64 milliseconds or more is taken
for what is left of it, and then what is well within the limit is missed and deleted. Below that
every limit is kept to the nanosecond, so a longer one never serves less and never deletes more. -/
namespace Overlay

namespace Duration

/-- The exact length. -/
def nanoseconds (d : Duration) : Nat :=
  d.secs * 1000000000 + d.nanos

instance : LE Duration := ⟨fun one other => one.nanoseconds ≤ other.nanoseconds⟩

instance : LT Duration := ⟨fun one other => one.nanoseconds < other.nanoseconds⟩

instance (one other : Duration) : Decidable (one ≤ other) :=
  inferInstanceAs (Decidable (one.nanoseconds ≤ other.nanoseconds))

theorem le_iff {one other : Duration} : one ≤ other ↔ one.nanoseconds ≤ other.nanoseconds :=
  Iff.rfl

theorem lt_iff_not_le {one other : Duration} : one < other ↔ ¬ other ≤ one :=
  Nat.not_le.symm

/-- How much time lies between a stamp and the present; none when the stamp is later. -/
def between (now stamp : Millis) : Duration :=
  .ofMillis (ageAt now stamp)

theorem nanoseconds_between (now stamp : Millis) :
    (between now stamp).nanoseconds = ageAt now stamp * 1000000 := by
  simp only [between, ofMillis, nanoseconds]
  omega

/-- What a limit comes to in milliseconds is what is left of it in sixty-four bits. -/
theorem toNat_wholeMillis (d : Duration) :
    d.wholeMillis.toNat = d.nanoseconds / 1000000 % UInt64.size := by
  have whole : d.secs * 1000 + d.nanos / 1000000 = d.nanoseconds / 1000000 := by
    unfold nanoseconds
    omega
  rw [wholeMillis, whole]
  exact UInt64.toNat_ofNat

/-- A limit that sixty-four bits of milliseconds can tell. One that is longer is told by chance if
what is left of it is the longest age there is, for no age exceeds that. -/
def Counted (limit : Duration) : Prop :=
  limit.nanoseconds < UInt64.size * 1000000 ∨ limit.wholeMillis.toNat = UInt64.size - 1

instance (limit : Duration) : Decidable limit.Counted :=
  inferInstanceAs (Decidable (_ ∨ _))

theorem ageAt_lt (now stamp : Millis) : ageAt now stamp < UInt64.size := by
  have reading := now.toNat_lt_size
  unfold ageAt
  omega

/-- Counting in milliseconds is exact for the limits that can be told. -/
theorem Counted.exact {limit : Duration} (counted : limit.Counted) (now stamp : Millis) :
    ageAt now stamp ≤ limit.wholeMillis.toNat ↔ between now stamp ≤ limit := by
  have short := ageAt_lt now stamp
  have left := limit.toNat_wholeMillis
  rw [le_iff, nanoseconds_between, ← Nat.le_div_iff_mul_le (by decide)]
  rcases counted with below | greatest
  · rw [left, Nat.mod_eq_of_lt (Nat.div_lt_of_lt_mul (by omega))]
  · have cut : limit.nanoseconds / 1000000 % UInt64.size ≤ limit.nanoseconds / 1000000 :=
      Nat.mod_le ..
    omega

/-- It is exact for no other limit: the longest age is within the limit and is not counted so. -/
theorem counted_of_exact {limit : Duration}
    (exact : ∀ now stamp, ageAt now stamp ≤ limit.wholeMillis.toNat ↔ between now stamp ≤ limit) :
    limit.Counted := by
  by_cases below : limit.nanoseconds < UInt64.size * 1000000
  · exact .inl below
  · right
    have longest : ageAt (.ofNat (UInt64.size - 1)) 0 = UInt64.size - 1 := by decide
    have within : between (.ofNat (UInt64.size - 1)) 0 ≤ limit := by
      rw [le_iff, nanoseconds_between, longest]
      omega
    have counted := (exact _ _).mpr within
    rw [longest] at counted
    have reading := limit.wholeMillis.toNat_lt_size
    omega

end Duration

/-- Whether an artifact may be served, by the exact time that has passed. -/
structure Artifact.ServesWithin (artifact : Artifact) (hash : String) (schema : UInt32)
    (now : Millis) (limit : Duration) : Prop where
  version : artifact.version = schema
  sourceHash : artifact.sourceHash = hash
  age : .between now artifact.createdAt ≤ limit

/-- Validity agrees with the exact time for the limits that can be told, and for no others. -/
theorem Artifact.isValidFor_exact_iff {limit : Duration} :
    (∀ (artifact : Artifact) (hash : String) (schema : UInt32) (now : Millis),
      artifact.isValidFor hash schema now limit = true ↔
        artifact.ServesWithin hash schema now limit) ↔ limit.Counted := by
  have unfolded (artifact : Artifact) (hash : String) (schema : UInt32) (now : Millis) :
      artifact.isValidFor hash schema now limit = true ↔ artifact.version = schema ∧
        artifact.sourceHash = hash ∧
          ageAt now artifact.createdAt ≤ limit.wholeMillis.toNat := by
    simp only [isValidFor, Bool.and_eq_true, beq_iff_eq, decide_eq_true_eq, and_assoc]
  constructor
  · intro exact
    refine Duration.counted_of_exact fun now stamp => ?_
    have valid := exact ⟨"", "", stamp, 0⟩ "" 0 now
    rw [unfolded] at valid
    exact ⟨fun young => (valid.mp ⟨rfl, rfl, young⟩).age,
      fun young => (valid.mpr ⟨rfl, rfl, young⟩).2.2⟩
  · intro counted artifact hash schema now
    rw [unfolded, counted.exact]
    constructor
    · rintro ⟨version, sourceHash, age⟩
      exact ⟨version, sourceHash, age⟩
    · rintro ⟨version, sourceHash, age⟩
      exact ⟨version, sourceHash, age⟩

theorem Artifact.ServesWithin.longer {artifact : Artifact} {hash : String} {schema : UInt32}
    {now : Millis} {limit longer : Duration} (serves : artifact.ServesWithin hash schema now limit)
    (more : limit ≤ longer) : artifact.ServesWithin hash schema now longer :=
  ⟨serves.version, serves.sourceHash, Nat.le_trans serves.age more⟩

namespace Cache
variable {σ : Type}

/-- The same cache with another age limit. -/
def limited (cache : Cache σ) (limit : Duration) : Cache σ :=
  { cache with policy := { cache.policy with maxAge := limit } }

variable {cache : Cache σ} {now : Millis} {key : String} {limit longer : Duration}

/-- What is fresh under a limit is fresh under a longer one, if both can be told. -/
theorem isFresh_longer (counted : limit.Counted) (countedLonger : longer.Counted)
    (more : limit ≤ longer) {artifact : Artifact} {hash : String}
    (fresh : (cache.limited limit).isFresh artifact hash now = true) :
    (cache.limited longer).isFresh artifact hash now = true := by
  have serves := (Artifact.isValidFor_exact_iff.mpr counted _ _ _ _).mp fresh
  exact (Artifact.isValidFor_exact_iff.mpr countedLonger _ _ _ _).mpr (serves.longer more)

variable [Store σ]

/-- What expires under a limit that can be told has exactly outlived it. -/
theorem Expires.exact {keys : List String} (expires : (cache.limited limit).Expires now keys key)
    (counted : limit.Counted) :
    ∃ stamp, Store.modified cache.store key = .ok (some stamp) ∧ limit < .between now stamp := by
  obtain ⟨stamp, told, older⟩ := isExpired_iff_stamp.mp expires.expired
  refine ⟨stamp, told, Duration.lt_iff_not_le.mpr fun young => ?_⟩
  exact Nat.not_le.mpr older ((counted.exact now stamp).mpr young)

/-- What expires under a longer limit expires under a shorter one. -/
theorem Expires.shorter {keys : List String} (expires : (cache.limited longer).Expires now keys key)
    (counted : limit.Counted) (countedLonger : longer.Counted) (more : limit ≤ longer) :
    (cache.limited limit).Expires now keys key := by
  refine ⟨expires.listed, isExpired_iff_stamp.mpr ?_, expires.deletable⟩
  obtain ⟨stamp, told, older⟩ := expires.exact countedLonger
  refine ⟨stamp, told, Nat.not_le.mp fun young => ?_⟩
  have within : .between now stamp ≤ limit := (counted.exact now stamp).mp young
  exact Duration.lt_iff_not_le.mp older (Nat.le_trans within more)

/-- What is found under a limit is not missed under a longer one, if both can be told. -/
theorem lookup_longer (counted : limit.Counted) (countedLonger : longer.Counted)
    (more : limit ≤ longer) {stage : Stage} {source compiled : String}
    (found : ((cache.limited limit).lookup now stage source).1 = some compiled) :
    ((cache.limited longer).lookup now stage source).1 ≠ none := by
  have outcome := (cache.limited limit).lookup_outcome now stage source
  rw [found] at outcome
  generalize ((cache.limited limit).lookup now stage source).2 = after at outcome
  cases outcome with
  | @remembered artifact remembered fresh =>
    have still := isFresh_longer counted countedLonger more fresh
    have answers : ((cache.limited longer).lookup now stage source).1 =
        some artifact.compiledSource := lookup_remembered remembered still
    rw [answers]
    exact Option.some_ne_none _
  | promoted unserved known fresh =>
    have still := isFresh_longer counted countedLonger more fresh
    exact lookup_of_persisted known still

end Cache

/-- Validity agrees with the exact time that has passed if and only if sixty-four bits of
milliseconds can tell the limit. Under such a limit an eviction changes an entry only if the time
since its stamp exceeds the limit, and between two such limits the longer one turns no hit into a
miss and deletes nothing that the shorter one keeps. -/
theorem age_limits_are_exact_when_counted (limit : Duration) :
    ((∀ (artifact : Artifact) (hash : String) (schema : UInt32) (now : Millis),
      artifact.isValidFor hash schema now limit = true ↔
        artifact.ServesWithin hash schema now limit) ↔ limit.Counted) ∧
    ∀ {σ : Type} [Store σ] [FramedStore σ] (cache : Cache σ) (now : Millis), limit.Counted →
      (∀ key, ¬ SameEntry key ((cache.limited limit).evict now).2.store cache.store →
        ∃ stamp, Store.modified cache.store key = .ok (some stamp) ∧
          limit < .between now stamp) ∧
      ∀ longer : Duration, longer.Counted → limit ≤ longer →
        (∀ stage source compiled,
          ((cache.limited limit).lookup now stage source).1 = some compiled →
            ((cache.limited longer).lookup now stage source).1 ≠ none) ∧
        ∀ key, SameEntry key ((cache.limited limit).evict now).2.store cache.store →
          SameEntry key ((cache.limited longer).evict now).2.store cache.store := by
  refine ⟨Artifact.isValidFor_exact_iff, fun cache now counted => ⟨fun key changed => ?_, ?_⟩⟩
  · by_cases expires : (cache.limited limit).Expires now cache.persistentKeys key
    · exact expires.exact counted
    · exact absurd (Cache.evict_same_iff.mpr expires) changed
  · intro longer countedLonger more
    refine ⟨fun stage source compiled => Cache.lookup_longer counted countedLonger more, ?_⟩
    intro key kept
    have stays := Cache.evict_same_iff.mp kept
    exact Cache.evict_same_iff.mpr fun expires =>
      stays (expires.shorter counted countedLonger more)

/-- A nanosecond short of two seconds, an age of two seconds has outlived the limit. What is stamped
a millisecond later has not, and it is kept under the longest limit below 2^64 milliseconds too. -/
theorem age_limits_are_exact_to_the_nanosecond :
    let limit : Duration := ⟨1, 999999999⟩
    let longer : Duration := ⟨18446744073709551, 615999999⟩
    let store : MemoryStore := ⟨⟨[("new", ⟨[], 5001⟩), ("old", ⟨[], 5000⟩)]⟩⟩
    let cache : Cache MemoryStore := { policy := {}, store }
    limit.Counted ∧ longer.Counted ∧ limit ≤ longer ∧
      (∃ stamp, Store.modified store "old" = .ok (some stamp) ∧ limit < .between 7000 stamp) ∧
      SameEntry "new" ((cache.limited longer).evict 7000).2.store store := by
  intro limit longer store cache
  have counted : limit.Counted := by decide
  have countedLonger : longer.Counted := by decide
  obtain ⟨changes, keeps⟩ := (age_limits_are_exact_when_counted limit).2 cache 7000 counted
  refine ⟨counted, countedLonger, by decide, changes "old" fun same => ?_, ?_⟩
  · have gone : ((cache.limited limit).evict 7000).2.store.entries.get? "old" = none := by decide
    have held := same.held
    simp only [LawfulStore.held, gone] at held
    cases held
  · have stays : ((cache.limited limit).evict 7000).2.store.entries.get? "new" =
        cache.store.entries.get? "new" := by decide
    exact (keeps longer countedLonger (by decide)).2 "new" (MemoryStore.sameEntry stays)

/-- A settings file asks for a limit of 18446744073709552 seconds, and 384 milliseconds are left of
it: an artifact that is a second old is not served, an entry as old is deleted, and under a limit of
one second the artifact would be served. -/
theorem age_limit_wraps_around :
    let limit : Duration := ⟨18446744073709552, 0⟩
    let artifact : Artifact := ⟨"out", "raw", 1000, 1⟩
    let store : MemoryStore := ⟨⟨[("old", ⟨[], 1000⟩)]⟩⟩
    let cache : Cache MemoryStore := { policy := {}, store }
    (Settings.parse "[cache]\nmax_age = 18446744073709552").toOption.map (·.cache.maxAge) =
        some limit ∧
      artifact.ServesWithin "raw" 1 2000 limit ∧ artifact.isValidFor "raw" 1 2000 limit = false ∧
      .between 2000 1000 ≤ limit ∧
      Store.modified store "old" = .ok (some 1000) ∧
      Store.modified ((cache.limited limit).evict 2000).2.store "old" = .ok none ∧
      ⟨1, 0⟩ ≤ limit ∧ artifact.isValidFor "raw" 1 2000 ⟨1, 0⟩ = true := by
  refine ⟨by decide +kernel, ⟨rfl, rfl, by decide⟩, by decide, by decide, rfl, rfl, by decide,
    by decide⟩

end Overlay
