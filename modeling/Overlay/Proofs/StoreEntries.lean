import Overlay.Proofs.DirectoryEntries
import Overlay.Proofs.DirectoryFrames

/-! What lies in a store by name. The contract of stores speaks of keys, but more may lie in a store
than a cache has filed there: in a directory whatever has the ending is an entry, under any name and
with any octets. So here every name has the node that lies under it, octets and stamp, whether or not
a call would reach it now. What the calls answer is read off the nodes, and a deletion takes away the
node under its own name and no other. -/
namespace Overlay
open DirectoryStore (contentOf)

/-- A framed store of which it is known what lies under every name. -/
class EntryStore (σ : Type) [Store σ] extends FramedStore σ where
  /-- What lies under a name, whether or not a call would reach it now. -/
  entry : σ → String → Option Node
  /-- A listing names what is there and nothing else. -/
  keys_entry {store : σ} {keys : List String} :
    Store.keys store = .ok keys → ∀ key, key ∈ keys ↔ (entry store key).isSome = true
  get_entry {store : σ} {key : String} {found : Option Bytes} :
    Store.get store key = .ok found → (entry store key).bind contentOf = found
  modified_entry {store : σ} {key : String} {found : Option Millis} :
    Store.modified store key = .ok found → (entry store key).map Node.changed = found
  size_entry {store : σ} {key : String} {found : Option Nat} :
    Store.size store key = .ok found → (entry store key).map Node.size = found
  delete_entry {store after : σ} {key : String} :
    Store.delete store key = .ok after →
      ∀ probe, entry after probe = if probe = key then none else entry store probe

/-! ### In memory -/

instance : EntryStore MemoryStore where
  entry store key := (store.entries.get? key).map fun entry => .file entry.content entry.modified
  keys_entry listed key := by
    cases listed
    rw [Table.mem_keys, Option.isSome_map]
  get_entry {store key found} got := by
    cases got
    cases store.entries.get? key <;> rfl
  modified_entry {store key found} told := by
    cases told
    cases store.entries.get? key <;> rfl
  size_entry {store key found} told := by
    cases told
    cases store.entries.get? key <;> rfl
  delete_entry deleted probe := by
    rw [MemoryStore.entries_of_delete deleted, Table.get?_erase]
    split <;> rfl

/-! ### In a directory -/

namespace DirectoryStore
variable {store after : DirectoryStore} {key : String}

/-- What lies in the directory under the name of the file of a key. -/
def node? (store : DirectoryStore) (key : String) : Option Node :=
  store.place?.bind fun place => (store.disk.entriesAt place.reverse).get? (fileName key)

theorem node?_at {place : List String} (led : store.place? = some place) (key : String) :
    store.node? key = (store.disk.entriesAt place.reverse).get? (fileName key) := by
  rw [node?, led, Option.bind_some]

theorem node?_of_nowhere (nowhere : ∀ place, store.place? = some place →
    (store.disk.entriesAt place.reverse).get? (fileName key) = none) : store.node? key = none := by
  cases led : store.place? with
  | none => rw [node?, led, Option.bind_none]
  | some place => rw [node?_at led, nowhere place led]

/-- What is read under a key are the octets of the node that lies there. -/
theorem content?_eq_node? (store : DirectoryStore) (key : String) :
    store.content? key = (store.node? key).bind contentOf := by
  cases led : store.place? with
  | none => rw [content?, node?, led, Option.bind_none, Option.bind_none]
  | some place =>
    rw [content?_at led, node?_at led]
    cases (store.disk.entriesAt place.reverse).get? (fileName key) with
    | none => rfl
    | some node => cases node <;> rfl

/-- What the path of an entry is found to name lies in the directory, and where nothing is found
nothing lies. -/
theorem node?_of_stat (stem : Store.isStem key = true) {found : Option Node}
    (told : orMissing (store.path key) (store.disk.stat (store.path key)) = .ok found) :
    store.node? key = found := by
  have enters := store.locate_enters stem
  simp only [Disk.stat, bind, Except.bind] at told
  generalize store.disk.locate (store.path key) = outcome at enters told
  cases enters with
  | found led held =>
    cases told
    rw [node?_at led, held]
  | missing led absent =>
    cases told
    rw [node?_at led, absent]
  | lost nowhere =>
    cases told
    exact node?_of_nowhere nowhere
  | @refused fault other =>
    cases fault with
    | notFound => exact absurd rfl other
    | _ => cases told

/-- What is asked of a listed name is answered by the node that lies under it. -/
theorem node?_of_answer {α : Type} {of : Node → α} {found : Option α}
    (told : (do
      let path ← store.listedPath key
      Option.map of <$> orMissing path (store.disk.stat path)) = .ok found) :
    key ≠ "" ∧ (store.node? key).map of = found := by
  unfold listedPath at told
  split at told
  · rename_i stem
    have something : key ≠ "" := by
      rintro rfl
      cases stem
    obtain ⟨node, answered, rfl⟩ := map_ok told
    exact ⟨something, by rw [node?_of_stat stem answered]⟩
  · cases told

/-- A deletion takes the node under its own name away. -/
theorem node?_delete (deleted : store.delete key = .ok after) (probe : String) :
    after.node? probe = if probe = key then none else store.node? probe := by
  obtain ⟨-, ⟨rfl, nothing, -⟩ | ⟨place, content, changed, led, held, -, rfl⟩⟩ :=
    delete_cases deleted
  · split
    · rename_i same
      rw [same, node?_of_nowhere nothing]
    · rfl
  · obtain ⟨still, left⟩ := (Open.of_file led held).changing
      fun name entries apart => Table.get?_erase_of_ne entries apart
    rw [node?_at still, node?_at led, left, Table.get?_erase]
    by_cases same : probe = key
    · rw [if_pos same, if_pos (congrArg fileName same)]
    · rw [if_neg same, if_neg fun names => same (fileName_inj names)]

/-- The listing of a directory names what lies in it. -/
theorem mem_keys_iff {keys : List String} (listed : store.keys = .ok keys) (key : String) :
    key ∈ keys ↔ key ≠ "" ∧ (store.node? key).isSome = true := by
  have told := listed
  unfold DirectoryStore.keys Disk.list at told
  cases located : store.disk.locate store.root with
  | error fault =>
    rw [located] at told
    cases told
  | ok place =>
    rw [located] at told
    cases place with
    | missing names mustBeDirectory => cases told
    | found names node =>
      cases node with
      | file content changed => cases told
      | directory changed entries =>
        obtain ⟨keysThere, answer, -, members⟩ := keys_of_locate located
        rw [listed] at answer
        cases answer
        obtain ⟨led, stands, -⟩ := place?_of_locate located
        rw [members, node?_at led, List.reverse_reverse, Disk.entriesAt_of_standing stands,
          Table.mem_keys]

/-- The file that has nothing but the ending for a name is no entry. -/
instance : EntryStore DirectoryStore where
  entry store key := if key = "" then none else store.node? key
  keys_entry listed key := by
    rw [mem_keys_iff listed]
    by_cases nothing : key = "" <;> simp [nothing]
  get_entry {store key found} got := by
    obtain ⟨valid, content⟩ := content?_of_get got
    have something : key ≠ "" := by
      rintro rfl
      cases valid
    rw [if_neg something, ← content?_eq_node?, content]
  modified_entry told := by
    obtain ⟨something, answer⟩ := node?_of_answer told
    rw [if_neg something, answer]
  size_entry told := by
    obtain ⟨something, answer⟩ := node?_of_answer told
    rw [if_neg something, answer]
  delete_entry deleted probe := by
    rw [node?_delete deleted]
    by_cases nothing : probe = ""
    · rw [if_pos nothing, if_pos nothing, ite_self]
    · rw [if_neg nothing, if_neg nothing]

end DirectoryStore

/-! ### Behind failing calls, and of two kinds -/

/-- Failing calls hide what lies in a store and do not change it. -/
instance {σ : Type} [Store σ] [EntryStore σ] : EntryStore (FaultyStore σ) where
  entry faulty key := EntryStore.entry faulty.store key
  keys_entry listed := EntryStore.keys_entry (FaultyStore.guarded_ok listed)
  get_entry got := EntryStore.get_entry (FaultyStore.guarded_ok got)
  modified_entry told := EntryStore.modified_entry (FaultyStore.guarded_ok told)
  size_entry told := EntryStore.size_entry (FaultyStore.guarded_ok told)
  delete_entry deleted := by
    obtain ⟨inner, done, rfl⟩ := map_ok (FaultyStore.guarded_ok deleted)
    exact EntryStore.delete_entry done

instance {σ τ : Type} [Store σ] [Store τ] [EntryStore σ] [EntryStore τ] : EntryStore (σ ⊕ τ) where
  entry
    | .inl store => EntryStore.entry store
    | .inr store => EntryStore.entry store
  keys_entry {store keys} listed := by
    cases store with
    | inl store =>
      have listed : Store.keys store = .ok keys := listed
      exact EntryStore.keys_entry listed
    | inr store =>
      have listed : Store.keys store = .ok keys := listed
      exact EntryStore.keys_entry listed
  get_entry {store key found} got := by
    cases store with
    | inl store =>
      have got : Store.get store key = .ok found := got
      exact EntryStore.get_entry got
    | inr store =>
      have got : Store.get store key = .ok found := got
      exact EntryStore.get_entry got
  modified_entry {store key found} told := by
    cases store with
    | inl store =>
      have told : Store.modified store key = .ok found := told
      exact EntryStore.modified_entry told
    | inr store =>
      have told : Store.modified store key = .ok found := told
      exact EntryStore.modified_entry told
  size_entry {store key found} told := by
    cases store with
    | inl store =>
      have told : Store.size store key = .ok found := told
      exact EntryStore.size_entry told
    | inr store =>
      have told : Store.size store key = .ok found := told
      exact EntryStore.size_entry told
  delete_entry {store after key} deleted := by
    cases store with
    | inl store =>
      obtain ⟨inner, done, rfl⟩ := map_ok deleted
      exact EntryStore.delete_entry done
    | inr store =>
      obtain ⟨inner, done, rfl⟩ := map_ok deleted
      exact EntryStore.delete_entry done

end Overlay
