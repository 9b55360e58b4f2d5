import Overlay.Proofs.StoreContract

/-! What deleting an entry leaves alone. The contract of stores says what is held after a deletion;
a caller also relies on what the calls answer, those that fail included. In a framed store an entry
that is deleted takes nothing else with it: every call about another entry answers as it did before.
This speaks of names and not of keys, so it covers what somebody else left in the store and what can
be listed but never read. -/
namespace Overlay
open LawfulStore (held)

/-- Two stores agree about an entry: the same octets lie there, and every call answers alike. -/
structure SameEntry {σ : Type} [Store σ] [LawfulStore σ] (key : String) (one other : σ) : Prop where
  held : held one key = held other key
  get : Store.get one key = Store.get other key
  modified : Store.modified one key = Store.modified other key
  size : Store.size one key = Store.size other key
  /-- Either both let the entry go or neither does. -/
  deletable : (Store.delete one key).isOk = (Store.delete other key).isOk

namespace SameEntry
variable {σ : Type} [Store σ] [LawfulStore σ] {key : String} {one other third : σ}

theorem refl (key : String) (store : σ) : SameEntry key store store :=
  ⟨rfl, rfl, rfl, rfl, rfl⟩

theorem symm (same : SameEntry key one other) : SameEntry key other one :=
  ⟨same.held.symm, same.get.symm, same.modified.symm, same.size.symm, same.deletable.symm⟩

theorem trans (first : SameEntry key one other) (second : SameEntry key other third) :
    SameEntry key one third :=
  ⟨first.held.trans second.held, first.get.trans second.get, first.modified.trans second.modified,
    first.size.trans second.size, first.deletable.trans second.deletable⟩

end SameEntry

/-- A lawful store in which a deletion concerns the deleted entry alone. -/
class FramedStore (σ : Type) [Store σ] extends LawfulStore σ where
  delete_others {store after : σ} {key probe : String} :
    Store.delete store key = .ok after → probe ≠ key → SameEntry probe after store
  /-- What has been deleted has no stamp, whether or not a call would tell now. -/
  delete_unstamped {store after : σ} {key : String} :
    Store.delete store key = .ok after → ∀ stamp, Store.modified after key ≠ .ok (some stamp)

/-- A store in memory answers for an entry by what lies in its table. -/
theorem MemoryStore.sameEntry {one other : MemoryStore} {key : String}
    (entry : one.entries.get? key = other.entries.get? key) : SameEntry key one other := by
  refine ⟨congrArg (Option.map (·.content)) entry, ?_, ?_, ?_, rfl⟩
  · simp only [Store.get, entry]
  · simp only [Store.modified, entry]
  · simp only [Store.size, entry]

instance : FramedStore MemoryStore where
  delete_others {store after key probe} deleted apart := by
    apply MemoryStore.sameEntry
    rw [MemoryStore.entries_of_delete deleted, Table.get?_erase_of_ne _ apart]
  delete_unstamped {store after key} deleted stamp told := by
    have gone : after.entries.get? key = none := by
      rw [MemoryStore.entries_of_delete deleted, Table.get?_erase_self]
    simp [Store.modified, gone] at told

theorem isOk_map {α β : Type} (answer : Except StoreError α) (f : α → β) :
    (answer.map f).isOk = answer.isOk := by
  cases answer <;> rfl

namespace FaultyStore
variable {σ : Type} [Store σ]

/-- Whether an entry can be deleted is up to the store below, as long as deletions do not fail. -/
theorem isOk_delete (faulty : FaultyStore σ) (key : String) :
    (Store.delete faulty key).isOk =
      (!faulty.failing.contains .delete && (Store.delete faulty.store key).isOk) := by
  change (faulty.guarded .delete ((Store.delete faulty.store key).map _)).isOk = _
  unfold guarded
  split
  · rename_i fails
    rw [fails]
    rfl
  · rename_i works
    rw [isOk_map, Bool.eq_false_iff.mpr works]
    rfl

instance [FramedStore σ] : FramedStore (FaultyStore σ) where
  delete_others {store after key probe} deleted apart := by
    obtain ⟨inner, done, rfl⟩ := map_ok (guarded_ok deleted)
    have same := FramedStore.delete_others done apart
    refine ⟨same.held, ?_, ?_, ?_, ?_⟩
    · exact congrArg (store.guarded .get) same.get
    · exact congrArg (store.guarded .modified) same.modified
    · exact congrArg (store.guarded .size) same.size
    · rw [isOk_delete, isOk_delete, same.deletable]
  delete_unstamped {store after key} deleted stamp told := by
    obtain ⟨inner, done, rfl⟩ := map_ok (guarded_ok deleted)
    exact FramedStore.delete_unstamped done stamp (guarded_ok told)

end FaultyStore

/-- The store that was chosen is framed if both could be chosen. -/
instance {σ τ : Type} [Store σ] [Store τ] [FramedStore σ] [FramedStore τ] :
    FramedStore (σ ⊕ τ) where
  delete_others {store after key probe} deleted apart := by
    cases store with
    | inl store =>
      obtain ⟨inner, done, rfl⟩ := map_ok deleted
      have same := FramedStore.delete_others done apart
      refine ⟨same.held, same.get, same.modified, same.size, ?_⟩
      exact (isOk_map _ _).trans (same.deletable.trans (isOk_map _ _).symm)
    | inr store =>
      obtain ⟨inner, done, rfl⟩ := map_ok deleted
      have same := FramedStore.delete_others done apart
      refine ⟨same.held, same.get, same.modified, same.size, ?_⟩
      exact (isOk_map _ _).trans (same.deletable.trans (isOk_map _ _).symm)
  delete_unstamped {store after key} deleted stamp told := by
    cases store with
    | inl store =>
      obtain ⟨inner, done, rfl⟩ := map_ok deleted
      exact FramedStore.delete_unstamped done stamp told
    | inr store =>
      obtain ⟨inner, done, rfl⟩ := map_ok deleted
      exact FramedStore.delete_unstamped done stamp told

end Overlay
