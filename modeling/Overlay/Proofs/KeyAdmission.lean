import Overlay.Proofs.CacheProvenance
import Overlay.Proofs.CacheRefinement
import Overlay.Proofs.DirectoryConfinement
import Overlay.Proofs.StoreAgreement
import Overlay.Session

/-! The keys of cache entries and the stores they are kept in. A key is made from a stage and a
digest, a store checks the letters of a key before it does anything, and a directory reads keys back
from the names of its files. If a store refused the key of an entry, nobody would hear of it, for a
cache puts up with every failure of its store: nothing would be kept. So it is shown here that no
store does, that the name of the file of an entry has room and is read back as its key, and that
entries of the two stages are never taken for each other, whatever others put into the store. -/
namespace Overlay
open LawfulStore (held)
open DirectoryStore (fileName keyOf?)

/-! ### Stores that take every key -/

/-- The call fails because the store does not take its key. -/
def RefusesKey {α : Type} (answer : Except StoreError α) : Prop :=
  ∃ key, answer = .error (.invalidKey key)

theorem not_refusesKey_ok {α : Type} {value : α} : ¬ RefusesKey (.ok value : Except StoreError α) :=
  fun ⟨_, same⟩ => nomatch same

theorem RefusesKey.of_map {α β : Type} {answer : Except StoreError α} {f : α → β}
    (refuses : RefusesKey (answer.map f)) : RefusesKey answer := by
  obtain ⟨key, same⟩ := refuses
  cases answer with
  | ok value => cases same
  | error fault =>
    cases same
    exact ⟨key, rfl⟩

/-- A call that fails for another cause refuses no key. -/
theorem RefusesKey.of_guarded {σ α : Type} {faulty : FaultyStore σ} {call : StoreCall}
    {answer : Except StoreError α} (refuses : RefusesKey (faulty.guarded call answer)) :
    RefusesKey answer := by
  unfold FaultyStore.guarded at refuses
  split at refuses
  · obtain ⟨key, same⟩ := refuses
    cases same
  · exact refuses

/-- Whatever else goes wrong, no call on a store refuses a key. -/
structure Takes {σ : Type} [Store σ] (store : σ) (key : String) : Prop where
  get : ¬ RefusesKey (Store.get store key)
  put (now : Millis) (content : Bytes) : ¬ RefusesKey (Store.put store now key content)
  delete : ¬ RefusesKey (Store.delete store key)
  modified : ¬ RefusesKey (Store.modified store key)
  size : ¬ RefusesKey (Store.size store key)

/-- A kind of store that takes whatever passes for a key. -/
class TakesKeys (σ : Type) [Store σ] : Prop where
  takes (store : σ) {key : String} (valid : Store.isKey key = true) : Takes store key

instance : TakesKeys MemoryStore where
  takes store key valid :=
    { get := not_refusesKey_ok
      put := fun now content => by
        simp only [Store.put, MemoryStore.put, valid, if_true]
        exact not_refusesKey_ok
      delete := not_refusesKey_ok
      modified := not_refusesKey_ok
      size := not_refusesKey_ok }

namespace DirectoryStore

/-- A call that goes on behind its check refuses no key if it does not do so later. -/
theorem not_refusesKey_of_passed {α : Type} {passes : Bool} {path key : String}
    {call : String → Except StoreError α} (passed : passes = true)
    (answers : ∀ refused, call path ≠ .error (.invalidKey refused)) :
    ¬ RefusesKey ((if passes then .ok path else .error (.invalidKey key)) >>= call) := by
  rintro ⟨refused, same⟩
  rw [if_pos passed] at same
  exact answers refused same

instance : TakesKeys DirectoryStore where
  takes store key valid := by
    have stem := Store.isStem_of_isKey valid
    constructor
    case get => exact not_refusesKey_of_passed valid fun _ => orMissing_ne_invalidKey
    case put =>
      intro now content
      refine not_refusesKey_of_passed valid fun refused => ?_
      cases store.disk.write (store.path key) content <;> exact nofun
    case delete =>
      refine not_refusesKey_of_passed stem fun refused => ?_
      cases store.disk.removeFile (store.path key) with
      | ok disk => exact nofun
      | error fault => cases fault <;> exact nofun
    case modified =>
      exact not_refusesKey_of_passed stem fun _ => map_ne_error orMissing_ne_invalidKey
    case size =>
      exact not_refusesKey_of_passed stem fun _ => map_ne_error orMissing_ne_invalidKey

end DirectoryStore

instance {σ : Type} [Store σ] [TakesKeys σ] : TakesKeys (FaultyStore σ) where
  takes faulty key valid := by
    obtain ⟨get, put, delete, modified, size⟩ := TakesKeys.takes faulty.store valid
    exact ⟨fun refuses => get refuses.of_guarded,
      fun now content refuses => put now content refuses.of_guarded.of_map,
      fun refuses => delete refuses.of_guarded.of_map,
      fun refuses => modified refuses.of_guarded, fun refuses => size refuses.of_guarded⟩

instance {σ τ : Type} [Store σ] [Store τ] [TakesKeys σ] [TakesKeys τ] : TakesKeys (σ ⊕ τ) where
  takes store key valid := by
    cases store with
    | inl store =>
      obtain ⟨get, put, delete, modified, size⟩ := TakesKeys.takes store valid
      exact ⟨get, fun now content refuses => put now content refuses.of_map,
        fun refuses => delete refuses.of_map, modified, size⟩
    | inr store =>
      obtain ⟨get, put, delete, modified, size⟩ := TakesKeys.takes store valid
      exact ⟨get, fun now content refuses => put now content refuses.of_map,
        fun refuses => delete refuses.of_map, modified, size⟩

/-! ### The name of a file -/

/-- A key that both rules let through, and the file that is named for it. -/
structure NamesFile (key : String) : Prop where
  valid : Store.isKey key = true
  stem : Store.isStem key = true
  length : (octets (fileName key)).length = 72
  /-- The path of the entry ends with that name. -/
  named (store : DirectoryStore) : Path.fileName? (store.path key) = some (fileName key)
  split : Path.splitExtension (fileName key) = (key, some Store.entryExtension)
  /-- A listing says the key where it finds that name and nowhere else. -/
  listed (name : String) : keyOf? name = some key ↔ name = fileName key

theorem namesFile_cacheKey (stage : Stage) (source : String) :
    NamesFile (cacheKey stage source) := by
  have valid := isKey_cacheKey stage source
  have stem := Store.isStem_of_isKey valid
  have written : cacheKey stage source ≠ "" := by
    intro empty
    rw [empty] at valid
    cases valid
  refine ⟨valid, stem, ?length, fun store => ?named, ?split, fun name => ?listed⟩
  case length => rw [DirectoryStore.length_octets_fileName valid, length_cacheKey]
  case named => rw [Path.fileName?, store.components_path stem, List.getLast?_concat]
  case split => exact DirectoryStore.splitExtension_eq_iff.mpr ⟨rfl, written⟩
  case listed => rw [DirectoryStore.keyOf?_eq_some_iff, and_iff_left written]

/-- A directory has room for the key of an entry if the path of its file is short enough. -/
theorem holds_cacheKey_of_fits {store : DirectoryStore} {stage : Stage} {source : String}
    (fits : (octets (store.path (cacheKey stage source))).length ≤ Disk.longestPath) :
    store.Holds (cacheKey stage source) := by
  have short : (cacheKey stage source).length ≤ 249 := by
    rw [length_cacheKey]
    decide
  exact ⟨isKey_cacheKey stage source, short, fits⟩

/-- It has room for them all if its own path leaves room for a name. -/
theorem holds_cacheKey {store : DirectoryStore}
    (room : (octets store.root).length + 73 ≤ Disk.longestPath) (stage : Stage) (source : String) :
    store.Holds (cacheKey stage source) := by
  have path := length_octets_path_le store.root (fileName (cacheKey stage source))
  rw [(namesFile_cacheKey stage source).length] at path
  exact holds_cacheKey_of_fits (Nat.le_trans path room)

/-! ### What a cache writes -/

section Writing
variable {σ : Type} [Store σ] [LawfulStore σ]

/-- The store that an event leaves behind. A record writes its artifact under the key of its stage
and source, unless the store fails for another cause than the key; no other event writes anything. -/
inductive Leaves (cache : Cache σ) (now : Millis) : CacheEvent σ → σ → Prop where
  | written {stage : Stage} {source compiled : String} {after : σ}
    (put : Store.put cache.store now (cacheKey stage source)
      (recordedArtifact cache.policy source compiled now).encode = .ok after) :
    Leaves cache now (.record stage source compiled) after
  | unwritten {stage : Stage} {source compiled : String} {fault : StoreError}
    (failed : Store.put cache.store now (cacheKey stage source)
      (recordedArtifact cache.policy source compiled now).encode = .error fault)
    (taken : ∀ key, fault ≠ .invalidKey key) :
    Leaves cache now (.record stage source compiled) cache.store
  | unwriting {event : CacheEvent σ} {after : σ}
    (other : ∀ stage source compiled, event ≠ .record stage source compiled)
    (loses : Loses cache.store after) : Leaves cache now event after

theorem leaves_record [TakesKeys σ] (cache : Cache σ) (now : Millis) (stage : Stage)
    (source compiled : String) :
    Leaves cache now (.record stage source compiled)
      (cache.record now stage source compiled).store := by
  have takes := TakesKeys.takes cache.store (isKey_cacheKey stage source)
  have refuses := takes.put now (recordedArtifact cache.policy source compiled now).encode
  rw [Cache.record, Cache.trim_store, Cache.persist]
  split
  · rename_i put
    exact .written put
  · rename_i fault failed
    refine .unwritten failed fun key same => refuses ⟨key, ?_⟩
    rw [← same]
    exact failed

/-- Whatever a cache does of its own accord, it writes under keys that its store takes. -/
theorem cacheAfter_leaves [TakesKeys σ] (cache : Cache σ) (now : Millis) {event : CacheEvent σ}
    (own : ∀ store, event ≠ .disturb store) :
    Leaves cache now event (CacheRun.cacheAfter cache now event).store := by
  cases event with
  | record stage source compiled => exact leaves_record cache now stage source compiled
  | lookup stage source => exact .unwriting nofun fun _ _ => Cache.held_of_lookup
  | evict => exact .unwriting nofun fun _ _ => Cache.held_of_expire
  | clear => exact .unwriting nofun fun _ _ => Cache.held_of_clear
  | reopen policy => exact .unwriting nofun fun _ _ => Cache.held_of_reopen
  | disturb store => exact absurd rfl (own store)
  | advance step => exact .unwriting nofun fun _ _ found => found
  | setClock reading => exact .unwriting nofun fun _ _ found => found

end Writing

/-- The keys of entries fit the stores. Both rules let each of them through, the name of its file is
72 octets long, and a listing reads that name, and no other, as that key; two keys are the same for
one stage and one fingerprint only. No call on a store refuses such a key, so what a cache writes is
never lost for its key, and what a lookup serves was recorded for its stage, unless others have put
it under its very key: no entry of the other stage is ever read in its place. Entries may be kept in
memory or in a directory, any calls may fail, and others may change the store at any time. -/
theorem cache_keys_fit_stores :
    (∀ stage source, NamesFile (cacheKey stage source)) ∧
    (∀ stage other source otherSource, cacheKey stage source = cacheKey other otherSource ↔
      stage = other ∧ fingerprint source = fingerprint otherSource) ∧
    (∀ (store : FaultyStore SessionStore) stage source, Takes store (cacheKey stage source)) ∧
    (∀ (cache : Cache (FaultyStore SessionStore)) now event, (∀ store, event ≠ .disturb store) →
      Leaves cache now event (CacheRun.cacheAfter cache now event).store) ∧
    ∀ brought (run : CacheRun (FaultyStore SessionStore)),
      Reached CacheRun.step (OthersBring brought) (OpenedAmid brought) run →
      ∀ stage source compiled, (run.cache.lookup run.now stage source).1 = some compiled →
        (∃ artifact, brought (cacheKey stage source) artifact ∧
          artifact.compiledSource = compiled) ∨
        ∃ moment ∈ run.past, ∃ recorded, moment.event = .record stage recorded compiled ∧
          fingerprint recorded = fingerprint source := by
  refine ⟨namesFile_cacheKey, fun stage other source otherSource => cacheKey_eq_iff,
    fun store stage source => TakesKeys.takes store (isKey_cacheKey stage source),
    fun cache now event own => cacheAfter_leaves cache now own,
    fun brought run reached stage source compiled served => ?_⟩
  exact served_was_brought_or_recorded reached served

/-- A store in memory in which others have left one entry. -/
def vertexEntryLeft : FaultyStore SessionStore where
  store := .inl ⟨⟨[(cacheKey .vertex "raw", ⟨(recordedArtifact {} "raw" "one" 5).encode, 5⟩)]⟩⟩

theorem held_vertexEntryLeft (key : String) :
    held vertexEntryLeft key =
      if key = cacheKey .vertex "raw" then some (recordedArtifact {} "raw" "one" 5).encode
      else none := by
  change (Table.find key [(cacheKey .vertex "raw", _)]).map MemoryEntry.content = _
  rw [Table.find]
  split <;> rfl

/-- The same text is recorded for the other stage, and the cache is opened anew. It serves what was
recorded, though the entry of the others lies there all the same. -/
theorem cache_keys_fit_stores_beside_vertex_entry :
    ∃ run : CacheRun (FaultyStore SessionStore),
      Reached CacheRun.step (OthersBring (Reads vertexEntryLeft))
        (OpenedAmid (Reads vertexEntryLeft)) run ∧
      (run.cache.lookup run.now .fragment "raw").1 = some "two" ∧
      Reads vertexEntryLeft (cacheKey .vertex "raw") (recordedArtifact {} "raw" "one" 5) ∧
      ∃ moment ∈ run.past, ∃ recorded, moment.event = .record .fragment recorded "two" ∧
        fingerprint recorded = fingerprint "raw" := by
  have begins : Reached CacheRun.step (OthersBring (Reads vertexEntryLeft))
      (OpenedAmid (Reads vertexEntryLeft)) (CacheRun.opened {} ⟨5⟩ vertexEntryLeft) :=
    .start ⟨{}, ⟨5⟩, vertexEntryLeft, rfl, fun key artifact found => found⟩
  have filed := begins.step (CacheEvent.record .fragment "raw" "two") trivial
  have reopened := filed.step (CacheEvent.reopen {}) trivial
  have there : Reads vertexEntryLeft (cacheKey .vertex "raw")
      (recordedArtifact {} "raw" "one" 5) := by
    refine ⟨_, ?_, Artifact.decode?_encode _⟩
    rw [held_vertexEntryLeft, if_pos rfl]
  obtain ⟨-, apart, -, -, origins⟩ := cache_keys_fit_stores
  have unbrought : ¬ ∃ artifact, Reads vertexEntryLeft (cacheKey .fragment "raw") artifact ∧
      artifact.compiledSource = "two" := by
    rintro ⟨artifact, ⟨content, found, -⟩, -⟩
    rw [held_vertexEntryLeft, if_neg] at found
    · cases found
    · rw [apart]
      exact nofun
  refine ⟨_, reopened, ?served, there, (origins _ _ reopened _ _ _ ?served).resolve_left unbrought⟩
  decide +kernel

end Overlay
