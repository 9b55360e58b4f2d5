import Overlay.Proofs.Building
import Overlay.Proofs.CacheTiers
import Overlay.Proofs.DirectoryEntries
import Overlay.Session.Report

/-! What the listing of a directory store is good for. A name is listed when its file has the ending,
whoever wrote the file; a listed name can be measured and removed unless it is one that paths single
out. There are two such names, a dot and two dots: files with two or three dots before the ending are
listed under them, and then neither clearing nor expiry reaches these files. Everything else that is
listed goes when the cache is cleared, and when it has expired. -/
namespace Overlay

namespace DirectoryStore

/-- A name that a path does not take for the name of a file. -/
def isDots (key : String) : Bool :=
  key == "." || key == ".."

/-- A directory in which nothing but files lies, under names and paths that the disk can keep. -/
structure HoldsFiles (root : String) (entries : Directory) : Prop where
  file {name : String} {node : Node} : entries.get? name = some node →
    ∃ content changed, node = .file content changed
  legal {name : String} {node : Node} : entries.get? name = some node → Disk.Legal name
  fits {name : String} {node : Node} : entries.get? name = some node →
    (octets (Path.append root name)).length ≤ Disk.longestPath

theorem HoldsFiles.erase {root : String} {entries : Directory} (files : HoldsFiles root entries)
    (name : String) : HoldsFiles root (entries.erase name) where
  file held := files.file (Table.get?_of_get?_erase held).2
  legal held := files.legal (Table.get?_of_get?_erase held).2
  fits held := files.fits (Table.get?_of_get?_erase held).2

/-- What may be asked for is any name of a file but the two of dots. -/
theorem isStem_of_legal {key : String} (something : key ≠ "") (legal : Disk.Legal (fileName key)) :
    Store.isStem key = !isDots key := by
  have inside : ∀ c ∈ key.toList, c ∈ (fileName key).toList := by
    intro c member
    rw [fileName, String.toList_append, String.toList_append]
    exact List.mem_append_left _ (List.mem_append_left _ member)
  have nulless : '\x00' ∉ key.toList := fun member => legal.nulless (inside _ member)
  have slashless : '/' ∉ key.toList := by
    intro member
    have other := legal.slashless _ (inside _ member)
    exact absurd other (by decide)
  have written : (key == "") = false := beq_eq_false_iff_ne.mpr something
  simp [Store.isStem, isDots, written, nulless, slashless, bne]

/-- A directory that stands and holds files only, and different keys that files are named for. -/
structure Lists (store : DirectoryStore) (place : List String) (entries : Directory)
    (keys : List String) : Prop where
  founded : store.Founded place entries
  files : HoldsFiles store.root entries
  named {key : String} : key ∈ keys → key ≠ "" ∧ fileName key ∈ entries.keys
  distinct : keys.Nodup

variable {store : DirectoryStore} {place : List String} {entries : Directory} {keys : List String}
  {key : String}

namespace Lists

theorem file (lists : store.Lists place entries keys) (listed : key ∈ keys) :
    ∃ content changed, entries.get? (fileName key) = some (.file content changed) := by
  obtain ⟨node, held⟩ :=
    Option.isSome_iff_exists.mp ((Table.mem_keys _ _).mp (lists.named listed).2)
  obtain ⟨content, changed, rfl⟩ := lists.files.file held
  exact ⟨content, changed, held⟩

theorem isStem (lists : store.Lists place entries keys) (listed : key ∈ keys) :
    Store.isStem key = !isDots key := by
  obtain ⟨content, changed, held⟩ := lists.file listed
  exact isStem_of_legal (lists.named listed).1 (lists.files.legal held)

theorem admits (lists : store.Lists place entries keys) (listed : key ∈ keys)
    (plain : isDots key = false) : store.Admits key := by
  obtain ⟨content, changed, held⟩ := lists.file listed
  refine ⟨?_, (lists.files.legal held).short, lists.files.fits held⟩
  rw [lists.isStem listed, plain]
  rfl

theorem free (lists : store.Lists place entries keys) (listed : key ∈ keys) : Free entries key := by
  obtain ⟨content, changed, held⟩ := lists.file listed
  intro time inner same
  rw [held] at same
  cases same

theorem listedPath_dots (lists : store.Lists place entries keys) (listed : key ∈ keys)
    (dots : isDots key = true) : store.listedPath key = .error (.invalidKey key) := by
  rw [listedPath, lists.isStem listed, dots]
  rfl

theorem tail (lists : store.Lists place entries (key :: keys)) : store.Lists place entries keys :=
  ⟨lists.founded, lists.files, fun member => lists.named (List.mem_cons_of_mem _ member),
    (List.nodup_cons.mp lists.distinct).2⟩

/-- A listed file goes when it is deleted, and the other names stay those of files. -/
theorem delete (lists : store.Lists place entries (key :: keys)) (plain : isDots key = false) :
    ∃ after, store.delete key = .ok after ∧ after.root = store.root ∧
      after.Lists place (entries.erase (fileName key)) keys := by
  have listed : key ∈ key :: keys := List.mem_cons_self
  obtain ⟨after, deleted, root, founded⟩ :=
    lists.founded.delete (lists.admits listed plain) (lists.free listed)
  obtain ⟨apart, distinct⟩ := List.nodup_cons.mp lists.distinct
  refine ⟨after, deleted, root, founded, ?_, fun {other} member => ?_, distinct⟩
  · rw [root]
    exact lists.files.erase _
  · obtain ⟨something, held⟩ := lists.named (List.mem_cons_of_mem _ member)
    refine ⟨something, (Table.mem_keys_erase _ _ _).mpr ⟨fun same => ?_, held⟩⟩
    rw [fileName_inj same] at member
    exact apart member

theorem delete_dots (lists : store.Lists place entries keys) (listed : key ∈ keys)
    (dots : isDots key = true) : store.delete key = .error (.invalidKey key) := by
  rw [DirectoryStore.delete, lists.listedPath_dots listed dots]
  rfl

theorem size_dots (lists : store.Lists place entries keys) (listed : key ∈ keys)
    (dots : isDots key = true) : store.size key = .error (.invalidKey key) := by
  rw [DirectoryStore.size, lists.listedPath_dots listed dots]
  rfl

theorem modified_dots (lists : store.Lists place entries keys) (listed : key ∈ keys)
    (dots : isDots key = true) : store.modified key = .error (.invalidKey key) := by
  rw [DirectoryStore.modified, lists.listedPath_dots listed dots]
  rfl

theorem modified (lists : store.Lists place entries keys) (listed : key ∈ keys)
    (plain : isDots key = false) {content : Bytes} {changed : Millis}
    (held : entries.get? (fileName key) = some (.file content changed)) :
    store.modified key = .ok (some changed) := by
  rw [lists.founded.modified (lists.admits listed plain), held]
  rfl

end Lists

/-! ### What is left -/

/-- The entries of a directory without the files of some keys. -/
def without (entries : Directory) (gone : List String) : Directory :=
  (gone.map fileName).foldl Table.erase entries

/-- What a store answers that is asked for its keys, when its directory holds files only. -/
structure Listing (store : DirectoryStore) (place : List String) (entries : Directory)
    (keys : List String) : Prop where
  lists : store.Lists place entries keys
  listed : store.keys = .ok keys
  ordered : keys.Pairwise (· < ·)
  members (key : String) : key ∈ keys ↔ key ≠ "" ∧ fileName key ∈ entries.keys

theorem Stands.listing (stands : store.Stands place entries)
    (files : HoldsFiles store.root entries) : ∃ keys, store.Listing place entries keys := by
  obtain ⟨keys, listed, ordered, members⟩ := stands.keys
  have distinct : keys.Nodup := ordered.imp fun before => Std.ne_of_lt before
  exact ⟨keys, ⟨stands.founded, files, fun member => (members _).mp member, distinct⟩, listed,
    ordered, members⟩

namespace Listing

/-- What is listed without the files of some keys is what was listed, without those keys. -/
theorem keys_without (listing : store.Listing place entries keys) {after : DirectoryStore}
    {gone : List String} (founded : after.Founded place (without entries gone)) :
    after.keys = .ok (keys.filter fun key => !gone.contains key) := by
  obtain ⟨left, listed, ordered, members⟩ := founded.stands.keys
  rw [listed]
  refine congrArg Except.ok
    (Table.eq_of_ascending ordered (listing.ordered.filter _) fun key => ?_)
  have files : fileName key ∈ gone.map fileName ↔ key ∈ gone := by
    rw [List.mem_map]
    constructor
    · rintro ⟨other, member, same⟩
      rw [← fileName_inj same]
      exact member
    · exact fun member => ⟨key, member, rfl⟩
  rw [members, without, Table.mem_keys_foldl_erase, List.mem_filter, listing.members, files,
    and_assoc]
  simp

/-- A listed name but for the two of dots is that of a file, which can be measured and removed. -/
theorem removable (listing : store.Listing place entries keys) (listed : key ∈ keys)
    (plain : isDots key = false) :
    ∃ content changed after, entries.get? (fileName key) = some (.file content changed) ∧
      store.size key = .ok (some content.length) ∧ store.modified key = .ok (some changed) ∧
      store.delete key = .ok after ∧ after.root = store.root ∧
      after.Stands place (entries.erase (fileName key)) := by
  have lists := listing.lists
  obtain ⟨content, changed, held⟩ := lists.file listed
  obtain ⟨after, deleted, root, left⟩ :=
    lists.founded.delete (lists.admits listed plain) (lists.free listed)
  refine ⟨content, changed, after, held, ?_, lists.modified listed plain held, deleted, root,
    left.stands⟩
  rw [lists.founded.size (lists.admits listed plain), held]
  rfl

end Listing
end DirectoryStore

namespace Cache
open DirectoryStore (isDots Lists Listing without Founded fileName)

variable {place : List String} {entries : Directory} {keys : List String}
  {cache : Cache DirectoryStore}

/-! ### Clearing -/

/-- Dropping listed entries one after the other takes all their files away but the two of dots. -/
theorem dropAll_founded (lists : cache.store.Lists place entries keys) :
    (keys.foldl dropPersistent cache).store.root = cache.store.root ∧
    (keys.foldl dropPersistent cache).store.Founded place
      (without entries (keys.filter (!isDots ·))) := by
  induction keys generalizing cache entries with
  | nil => exact ⟨rfl, lists.founded⟩
  | cons key rest ih =>
    rw [List.foldl_cons]
    cases dots : isDots key with
    | true =>
      have refused : Store.delete cache.store key = .error (.invalidKey key) :=
        lists.delete_dots List.mem_cons_self dots
      rw [dropPersistent, refused, List.filter_cons_of_neg (by simp [dots])]
      exact ih lists.tail
    | false =>
      obtain ⟨after, deleted, root, further⟩ := lists.delete dots
      have deleted : Store.delete cache.store key = .ok after := deleted
      have further : { cache with store := after }.store.Lists place _ rest := further
      rw [dropPersistent, deleted, List.filter_cons_of_pos (by simp [dots])]
      obtain ⟨kept, left⟩ := ih further
      exact ⟨kept.trans root, left⟩

theorem persistentKeys_of_listed {σ : Type} [Store σ] {cache : Cache σ}
    (listed : Store.keys cache.store = .ok keys) : cache.persistentKeys = keys := by
  rw [persistentKeys, listed]

/-- Clearing leaves the two names of dots in the listing. -/
theorem clear_listing (listing : cache.store.Listing place entries keys) :
    cache.clear.store.root = cache.store.root ∧
      cache.clear.store.keys = .ok (keys.filter isDots) := by
  have lists : { cache with memory := ∅ }.store.Lists place entries keys := listing.lists
  obtain ⟨root, left⟩ := dropAll_founded lists
  rw [clear, persistentKeys_of_listed listing.listed]
  refine ⟨root, ?_⟩
  rw [listing.keys_without left]
  refine congrArg Except.ok (List.filter_congr fun key member => ?_)
  cases dots : isDots key with
  | true => simp [dots]
  | false => simp [dots, member]

/-! ### Expiry -/

/-- Whether a file has outlived a limit by its stamp. -/
def outlived (entries : Directory) (limit : Nat) (now : Millis) (key : String) : Bool :=
  match entries.get? (fileName key) with
  | some node => decide (limit < ageAt now node.changed)
  | none => false

theorem isExpired_listed {key : String} (lists : cache.store.Lists place entries keys)
    (listed : key ∈ keys) (now : Millis) :
    cache.isExpired now key =
      (!isDots key && outlived entries cache.policy.maxAge.wholeMillis.toNat now key) := by
  obtain ⟨content, changed, held⟩ := lists.file listed
  unfold isExpired outlived
  cases dots : isDots key with
  | true =>
    have refused : Store.modified cache.store key = .error (.invalidKey key) :=
      lists.modified_dots listed dots
    rw [refused]
    rfl
  | false =>
    have answer : Store.modified cache.store key = .ok (some changed) :=
      lists.modified listed dots held
    rw [answer, held]
    rfl

/-- A file that is taken away makes no difference to another one. -/
theorem outlived_erase {key other : String} (apart : other ≠ key) (limit : Nat) (now : Millis) :
    outlived (entries.erase (fileName key)) limit now other = outlived entries limit now other := by
  have names : fileName other ≠ fileName key := fun same => apart (DirectoryStore.fileName_inj same)
  rw [outlived, Table.get?_erase_of_ne _ names]
  rfl

/-- Expiring listed entries takes away, and counts, those that have outlived the limit, but for the
two of dots. -/
theorem expire_founded (lists : cache.store.Lists place entries keys) (now : Millis) :
    let gone := keys.filter fun key =>
      !isDots key && outlived entries cache.policy.maxAge.wholeMillis.toNat now key
    (cache.expire now keys).1 = gone.length ∧
    (cache.expire now keys).2.store.Founded place (without entries gone) := by
  induction keys generalizing cache entries with
  | nil => exact ⟨rfl, lists.founded⟩
  | cons key rest ih =>
    have expired := isExpired_listed lists List.mem_cons_self now
    dsimp only
    rw [expire, expired]
    cases goes : !isDots key &&
        outlived entries cache.policy.maxAge.wholeMillis.toNat now key with
    | false =>
      rw [List.filter_cons_of_neg (by simp [goes])]
      exact ih lists.tail
    | true =>
      have dots : isDots key = false := by
        rw [Bool.and_eq_true] at goes
        simpa using goes.1
      obtain ⟨after, deleted, root, further⟩ := lists.delete dots
      have deleted : Store.delete cache.store key = .ok after := deleted
      have further : { cache with store := after }.store.Lists place _ rest := further
      obtain ⟨count, left⟩ := ih further
      have apart := (List.nodup_cons.mp lists.distinct).1
      have same : (rest.filter fun other => !isDots other &&
            outlived (entries.erase (fileName key)) cache.policy.maxAge.wholeMillis.toNat now other) =
          rest.filter fun other => !isDots other &&
            outlived entries cache.policy.maxAge.wholeMillis.toNat now other := by
        refine List.filter_congr fun other member => ?_
        rw [outlived_erase]
        rintro rfl
        exact apart member
      rw [same] at count left
      rw [if_pos rfl, deleted, List.filter_cons_of_pos (by simpa using goes)]
      exact ⟨congrArg (· + 1) count, left⟩

/-- An eviction counts what has outlived the limit, and lists it no longer. -/
theorem evict_listing (listing : cache.store.Listing place entries keys) (now : Millis) :
    let gone := keys.filter fun key =>
      !isDots key && outlived entries cache.policy.maxAge.wholeMillis.toNat now key
    (cache.evict now).1.expiredPersistent = gone.length ∧
      (cache.evict now).2.store.keys = .ok (keys.filter fun key => !gone.contains key) := by
  obtain ⟨count, left⟩ := expire_founded listing.lists now
  have asked : cache.persistentKeys = keys := persistentKeys_of_listed listing.listed
  have evicted : (cache.evict now).1.expiredPersistent = (cache.expire now keys).1 := by
    rw [evict, asked]
  dsimp only
  rw [evict_store, evicted, asked]
  exact ⟨count, listing.keys_without left⟩

/-! ### A session's cache -/

/-- A cache over a directory as a session has it, which could have had one in memory. -/
def inSession (cache : Cache DirectoryStore) : Cache SessionStore where
  policy := cache.policy
  memory := cache.memory
  store := .inr cache.store

theorem dropAll_inSession (keys : List String) (cache : Cache DirectoryStore) :
    keys.foldl dropPersistent cache.inSession = (keys.foldl dropPersistent cache).inSession := by
  induction keys generalizing cache with
  | nil => rfl
  | cons key rest ih =>
    have same : cache.inSession.dropPersistent key = (cache.dropPersistent key).inSession := by
      unfold dropPersistent
      have asked : Store.delete cache.inSession.store key =
          (Store.delete cache.store key).map Sum.inr := rfl
      rw [asked]
      cases Store.delete cache.store key with
      | ok after => rfl
      | error error => rfl
    rw [List.foldl_cons, same, ih, List.foldl_cons]

theorem clear_inSession (cache : Cache DirectoryStore) :
    cache.inSession.clear = cache.clear.inSession := by
  have keys : cache.inSession.persistentKeys = cache.persistentKeys := rfl
  unfold clear
  rw [keys]
  exact dropAll_inSession cache.persistentKeys { cache with memory := ∅ }

end Cache

open DirectoryStore (isDots fileName HoldsFiles Listing)

/-- A session that clears its cache reports all that was listed, and leaves the two names of dots. -/
theorem Session.clear_listing {session : Session} {store : DirectoryStore} {place : List String}
    {entries : Directory} {keys : List String} (listing : store.Listing place entries keys)
    (same : session.cache.store = .inr store) :
    let outcome := session.perform (.cache .clear)
    outcome.output = Report.line ("removed " ++ toString keys.length ++ " cached shaders") ∧
      (DirectoryStore.mk store.root outcome.disk).keys = .ok (keys.filter isDots) := by
  let cache : Cache DirectoryStore := ⟨session.cache.policy, session.cache.memory, store⟩
  have chosen : session.cache = cache.inSession := by
    rw [Cache.inSession, ← same]
  have listed : Store.keys session.cache.store = .ok keys := by
    rw [same]
    exact listing.listed
  have counted : session.cache.stats.persistentEntries = keys.length := by
    rw [Cache.stats, Cache.persistentKeys_of_listed listed]
  have disk : session.clearCache.disk = cache.clear.store.disk := by
    rw [Session.disk, Session.clearCache, chosen, Cache.clear_inSession]
    rfl
  obtain ⟨root, left⟩ := cache.clear_listing listing
  refine ⟨?_, ?_⟩
  · change Report.cleared session.cache.stats = _
    rw [Report.cleared, counted]
  · change (DirectoryStore.mk store.root session.clearCache.disk).keys = _
    have standing : DirectoryStore.mk store.root cache.clear.store.disk = cache.clear.store :=
      congrArg (DirectoryStore.mk · cache.clear.store.disk) root.symm
    rw [disk, standing]
    exact left

/-- In a directory that holds nothing but files, every listed name is that of a file. Unless it is a
dot or two dots, it can be measured, and deleting it takes away this file and nothing else; the two
are refused. So clearing the cache leaves these two in the listing, an eviction takes away the
others that have outlived the limit, and what clearing reports as removed counts the two as well. -/
theorem listed_entries_are_removable {store : DirectoryStore} {place : List String}
    {entries : Directory} (stands : store.Stands place entries)
    (files : HoldsFiles store.root entries) :
    ∃ keys, store.keys = .ok keys ∧
      (∀ key ∈ keys, isDots key = false →
        ∃ content changed after, entries.get? (fileName key) = some (.file content changed) ∧
          store.size key = .ok (some content.length) ∧ store.modified key = .ok (some changed) ∧
          store.delete key = .ok after ∧ after.root = store.root ∧
          after.Stands place (entries.erase (fileName key))) ∧
      (∀ key ∈ keys, isDots key = true → store.size key = .error (.invalidKey key) ∧
        store.modified key = .error (.invalidKey key) ∧
        store.delete key = .error (.invalidKey key)) ∧
      (∀ cache : Cache DirectoryStore, cache.store = store →
        cache.clear.store.keys = .ok (keys.filter isDots)) ∧
      (∀ (cache : Cache DirectoryStore) (now : Millis), cache.store = store →
        let gone := keys.filter fun key =>
          !isDots key && Cache.outlived entries cache.policy.maxAge.wholeMillis.toNat now key
        (cache.evict now).1.expiredPersistent = gone.length ∧
        (cache.evict now).2.store.keys = .ok (keys.filter fun key => !gone.contains key)) ∧
      ∀ session : Session, session.cache.store = .inr store →
        let outcome := session.perform (.cache .clear)
        outcome.output =
          Report.line ("removed " ++ toString keys.length ++ " cached shaders") ∧
        (DirectoryStore.mk store.root outcome.disk).keys = .ok (keys.filter isDots) := by
  obtain ⟨keys, listing⟩ := stands.listing files
  refine ⟨keys, listing.listed, fun key listed plain => listing.removable listed plain, ?_, ?_, ?_,
    fun session same => Session.clear_listing listing same⟩
  · intro key listed dots
    have lists := listing.lists
    exact ⟨lists.size_dots listed dots, lists.modified_dots listed dots,
      lists.delete_dots listed dots⟩
  · rintro cache rfl
    exact (cache.clear_listing listing).2
  · rintro cache now rfl
    exact cache.evict_listing listing now

/-- Two files that others have left: one under a name with a blank, one under two dots and the
ending. -/
def leftBehind : Directory :=
  ⟨[("..cache", .file [1] 3), ("a b.cache", .file [1, 2] 5)]⟩

theorem leftBehind_holdsFiles : HoldsFiles "a/../c/" leftBehind := by
  have either {name : String} {node : Node} (held : leftBehind.get? name = some node) :
      name = "..cache" ∧ node = .file [1] 3 ∨ name = "a b.cache" ∧ node = .file [1, 2] 5 := by
    simp only [leftBehind, Table.get?, Table.find] at held
    split at held
    · cases held
      exact .inl ⟨‹_›, rfl⟩
    · split at held
      · cases held
        exact .inr ⟨‹_›, rfl⟩
      · cases held
  refine ⟨fun {name node} held => ?_, fun {name node} held => ?_, fun {name node} held => ?_⟩
  · rcases either held with ⟨-, rfl⟩ | ⟨-, rfl⟩
    · exact ⟨_, _, rfl⟩
    · exact ⟨_, _, rfl⟩
  · rcases either held with ⟨rfl, -⟩ | ⟨rfl, -⟩
    · decide
    · decide
  · rcases either held with ⟨rfl, -⟩ | ⟨rfl, -⟩
    · decide +kernel
    · decide +kernel

/-- The name with a blank is no key, and yet its file can be taken away. -/
theorem listed_entries_are_removable_with_blank :
    let store := DirectoryStore.beside leftBehind 9
    store.Stands ["c"] leftBehind ∧ HoldsFiles store.root leftBehind ∧
      ∃ after, store.delete "a b" = .ok after ∧
        after.Stands ["c"] (leftBehind.erase "a b.cache") := by
  have stands := DirectoryStore.beside_stands leftBehind 9
  obtain ⟨keys, listed, removable, -⟩ := listed_entries_are_removable stands leftBehind_holdsFiles
  have both : (DirectoryStore.beside leftBehind 9).keys = .ok [".", "a b"] := by decide +kernel
  have member : "a b" ∈ keys := by
    rw [both] at listed
    cases listed
    decide
  obtain ⟨content, changed, after, -, -, -, deleted, -, left⟩ := removable "a b" member (by decide)
  exact ⟨stands, leftBehind_holdsFiles, after, deleted, left⟩

/-- The file under two dots and the ending is listed as a dot, and this name can be neither measured
nor removed: it stays when the cache is cleared. -/
theorem listed_dot_is_refused :
    let store := DirectoryStore.beside leftBehind 9
    let cache : Cache DirectoryStore := { policy := {}, store }
    store.Stands ["c"] leftBehind ∧ HoldsFiles store.root leftBehind ∧
      store.keys = .ok [".", "a b"] ∧ store.size "." = .error (.invalidKey ".") ∧
      store.modified "." = .error (.invalidKey ".") ∧
      store.delete "." = .error (.invalidKey ".") ∧ cache.clear.store.keys = .ok ["."] := by
  refine ⟨DirectoryStore.beside_stands leftBehind 9, leftBehind_holdsFiles, ?_, ?_, ?_, ?_, ?_⟩
  · decide +kernel
  · decide +kernel
  · decide +kernel
  · rfl
  · decide +kernel

end Overlay
