import Overlay.Store.Choice
import Overlay.Store.Faulty
import Overlay.Store.Memory
import Overlay.Proofs.Table

/-! What a cache may rely on in a store, whatever kind of store it is and whichever of its calls
fail. A store holds octets under keys; a call that succeeds answers what is held or changes it under
its own key alone. The contract is stated of what is held, not of what can be read at the moment, so
that a store whose calls fail for a while is known not to forget and not to invent anything. -/
namespace Overlay

/-- A store whose successful calls read and change what it holds, one key at a time. -/
class LawfulStore (σ : Type) [Store σ] where
  /-- What lies under a key, whether or not a call would reach it now. -/
  held : σ → String → Option Bytes
  get_held {store : σ} {key : String} {found : Option Bytes} :
    Store.get store key = .ok found → held store key = found
  put_held {store after : σ} {now : Millis} {key : String} {content : Bytes} :
    Store.put store now key content = .ok after →
      ∀ probe, held after probe = if probe = key then some content else held store probe
  delete_held {store after : σ} {key : String} :
    Store.delete store key = .ok after →
      ∀ probe, held after probe = if probe = key then none else held store probe

open LawfulStore (held)

namespace MemoryStore

/-- What is written lies in the table, with the reading at which it was written. -/
theorem entries_of_put {store after : MemoryStore} {now : Millis} {key : String} {content : Bytes}
    (put : Store.put store now key content = .ok after) :
    after.entries = store.entries.insert key ⟨content, now⟩ := by
  simp only [Store.put, MemoryStore.put] at put
  split at put
  · cases put
    rfl
  · cases put

/-- What is deleted is gone from the table. -/
theorem entries_of_delete {store after : MemoryStore} {key : String}
    (deleted : Store.delete store key = .ok after) : after.entries = store.entries.erase key := by
  cases deleted
  rfl

end MemoryStore

instance : LawfulStore MemoryStore where
  held store key := (store.entries.get? key).map (·.content)
  get_held got := by
    cases got
    rfl
  put_held put probe := by
    rw [MemoryStore.entries_of_put put, Table.get?_insert]
    split <;> rfl
  delete_held deleted probe := by
    rw [MemoryStore.entries_of_delete deleted, Table.get?_erase]
    split <;> rfl

theorem map_ok {α β : Type} {answer : Except StoreError α} {f : α → β} {value : β}
    (ok : answer.map f = .ok value) : ∃ inner, answer = .ok inner ∧ value = f inner := by
  cases answer with
  | error error => cases ok
  | ok inner =>
    cases ok
    exact ⟨inner, rfl, rfl⟩

namespace FaultyStore
variable {σ : Type}

/-- A guarded call answers only what the store below answers. -/
theorem guarded_ok {α : Type} {faulty : FaultyStore σ} {call : StoreCall}
    {answer : Except StoreError α} {value : α} (ok : faulty.guarded call answer = .ok value) :
    answer = .ok value := by
  unfold guarded at ok
  split at ok
  · cases ok
  · exact ok

/-- Failing calls hide what a store holds and do not change it. -/
instance [Store σ] [LawfulStore σ] : LawfulStore (FaultyStore σ) where
  held faulty key := held faulty.store key
  get_held got := LawfulStore.get_held (guarded_ok got)
  put_held put probe := by
    obtain ⟨inner, done, rfl⟩ := map_ok (guarded_ok put)
    exact LawfulStore.put_held done probe
  delete_held deleted probe := by
    obtain ⟨inner, done, rfl⟩ := map_ok (guarded_ok deleted)
    exact LawfulStore.delete_held done probe

end FaultyStore

/-- The store that was chosen keeps the contract if both could. -/
instance {σ τ : Type} [Store σ] [Store τ] [LawfulStore σ] [LawfulStore τ] :
    LawfulStore (σ ⊕ τ) where
  held
    | .inl store => held store
    | .inr store => held store
  get_held {store key found} got := by
    cases store with
    | inl store =>
      change Store.get store key = .ok found at got
      exact LawfulStore.get_held got
    | inr store =>
      change Store.get store key = .ok found at got
      exact LawfulStore.get_held got
  put_held {store after now key content} put probe := by
    cases store with
    | inl store =>
      obtain ⟨inner, done, rfl⟩ := map_ok put
      exact LawfulStore.put_held done probe
    | inr store =>
      obtain ⟨inner, done, rfl⟩ := map_ok put
      exact LawfulStore.put_held done probe
  delete_held {store after key} deleted probe := by
    cases store with
    | inl store =>
      obtain ⟨inner, done, rfl⟩ := map_ok deleted
      exact LawfulStore.delete_held done probe
    | inr store =>
      obtain ⟨inner, done, rfl⟩ := map_ok deleted
      exact LawfulStore.delete_held done probe

/-- A lawful store that, while it works, reads and writes whenever it is asked to, and stamps an entry
with the reading at which it was written. Its calls leave it working. Listing, measuring and deleting
may fail even so. -/
class PunctualStore (σ : Type) [Store σ] extends LawfulStore σ where
  /-- Reading, writing and stamping do not fail. -/
  Works : σ → Prop
  /-- When an entry was written, whether or not a call would tell now. -/
  stamp : σ → String → Option Millis
  put_works {store after : σ} {now : Millis} {key : String} {content : Bytes} :
    Works store → Store.put store now key content = .ok after → Works after
  delete_works {store after : σ} {key : String} :
    Works store → Store.delete store key = .ok after → Works after
  get_answers {store : σ} {key : String} :
    Works store → Store.isKey key = true → Store.get store key = .ok (held store key)
  put_answers {store : σ} {now : Millis} {key : String} {content : Bytes} :
    Works store → Store.isKey key = true → ∃ after, Store.put store now key content = .ok after
  modified_stamp {store : σ} {key : String} {stamped : Option Millis} :
    Works store → Store.modified store key = .ok stamped → stamp store key = stamped
  put_stamp {store after : σ} {now : Millis} {key : String} {content : Bytes} :
    Works store → Store.put store now key content = .ok after →
      ∀ probe, stamp after probe = if probe = key then some now else stamp store probe
  delete_stamp {store after : σ} {key : String} :
    Works store → Store.delete store key = .ok after →
      ∀ probe, stamp after probe = if probe = key then none else stamp store probe

/-- A store in memory always works. -/
instance : PunctualStore MemoryStore where
  Works _ := True
  stamp store key := (store.entries.get? key).map (·.modified)
  put_works _ _ := trivial
  delete_works _ _ := trivial
  get_answers _ _ := rfl
  put_answers {store now key content} _ accepted := by
    refine ⟨⟨store.entries.insert key ⟨content, now⟩⟩, ?_⟩
    simp only [Store.put, MemoryStore.put, accepted, if_true]
  modified_stamp _ asked := by
    cases asked
    rfl
  put_stamp _ put probe := by
    rw [MemoryStore.entries_of_put put, Table.get?_insert]
    split <;> rfl
  delete_stamp _ deleted probe := by
    rw [MemoryStore.entries_of_delete deleted, Table.get?_erase]
    split <;> rfl

/-- A call that does not fail answers as the store below does. -/
theorem FaultyStore.guarded_of_spared {σ α : Type} {faulty : FaultyStore σ} {call : StoreCall}
    (spared : call ∉ faulty.failing) (answer : Except StoreError α) :
    faulty.guarded call answer = answer := by
  rw [FaultyStore.guarded, if_neg]
  simpa using spared

/-- A store works while neither reading nor writing is among the calls that fail. -/
instance {σ : Type} [Store σ] [PunctualStore σ] : PunctualStore (FaultyStore σ) where
  toLawfulStore := inferInstance
  Works faulty := .get ∉ faulty.failing ∧ .put ∉ faulty.failing ∧ PunctualStore.Works faulty.store
  stamp faulty key := PunctualStore.stamp faulty.store key
  put_works := by
    rintro faulty _ now key content ⟨reads, writes, works⟩ put
    obtain ⟨inner, done, rfl⟩ := map_ok (FaultyStore.guarded_ok put)
    exact ⟨reads, writes, PunctualStore.put_works works done⟩
  delete_works := by
    rintro faulty _ key ⟨reads, writes, works⟩ deleted
    obtain ⟨inner, done, rfl⟩ := map_ok (FaultyStore.guarded_ok deleted)
    exact ⟨reads, writes, PunctualStore.delete_works works done⟩
  get_answers := by
    rintro faulty key ⟨reads, -, works⟩ accepted
    exact (FaultyStore.guarded_of_spared reads _).trans (PunctualStore.get_answers works accepted)
  put_answers := by
    rintro faulty now key content ⟨-, writes, works⟩ accepted
    obtain ⟨inner, done⟩ : ∃ inner, Store.put faulty.store now key content = .ok inner :=
      PunctualStore.put_answers works accepted
    refine ⟨{ faulty with store := inner }, (FaultyStore.guarded_of_spared writes _).trans ?_⟩
    rw [done]
    rfl
  modified_stamp := by
    rintro faulty key stamped ⟨-, -, works⟩ asked
    exact PunctualStore.modified_stamp works (FaultyStore.guarded_ok asked)
  put_stamp := by
    rintro faulty _ now key content ⟨-, -, works⟩ put probe
    obtain ⟨inner, done, rfl⟩ := map_ok (FaultyStore.guarded_ok put)
    exact PunctualStore.put_stamp works done probe
  delete_stamp := by
    rintro faulty _ key ⟨-, -, works⟩ deleted probe
    obtain ⟨inner, done, rfl⟩ := map_ok (FaultyStore.guarded_ok deleted)
    exact PunctualStore.delete_stamp works done probe

/-- Of two kinds of stores, one whose stores stamp by the readings they are given works as long as it
is the one that was chosen. -/
instance {σ τ : Type} [Store σ] [Store τ] [PunctualStore σ] [LawfulStore τ] :
    PunctualStore (σ ⊕ τ) where
  toLawfulStore := inferInstance
  Works
    | .inl store => PunctualStore.Works store
    | .inr _ => False
  stamp
    | .inl store => PunctualStore.stamp store
    | .inr _ => fun _ => none
  put_works {store after now key content} works put := by
    cases store with
    | inl store =>
      obtain ⟨inner, done, rfl⟩ := map_ok put
      exact PunctualStore.put_works works done
    | inr store => exact works.elim
  delete_works {store after key} works deleted := by
    cases store with
    | inl store =>
      obtain ⟨inner, done, rfl⟩ := map_ok deleted
      exact PunctualStore.delete_works works done
    | inr store => exact works.elim
  get_answers {store key} works accepted := by
    cases store with
    | inl store => exact PunctualStore.get_answers works accepted
    | inr store => exact works.elim
  put_answers {store now key content} works accepted := by
    cases store with
    | inl store =>
      obtain ⟨inner, done⟩ : ∃ inner, Store.put store now key content = .ok inner :=
        PunctualStore.put_answers works accepted
      exact ⟨.inl inner, congrArg (Except.map Sum.inl) done⟩
    | inr store => exact works.elim
  modified_stamp {store key stamped} works asked := by
    cases store with
    | inl store => exact PunctualStore.modified_stamp works asked
    | inr store => exact works.elim
  put_stamp {store after now key content} works put probe := by
    cases store with
    | inl store =>
      obtain ⟨inner, done, rfl⟩ := map_ok put
      exact PunctualStore.put_stamp works done probe
    | inr store => exact works.elim
  delete_stamp {store after key} works deleted probe := by
    cases store with
    | inl store =>
      obtain ⟨inner, done, rfl⟩ := map_ok deleted
      exact PunctualStore.delete_stamp works done probe
    | inr store => exact works.elim

end Overlay
