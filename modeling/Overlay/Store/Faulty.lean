import Overlay.Store

/-! A store some of whose calls fail, whatever they ask for. Which calls these are can change at any
time; what the store holds does not change by it. -/
namespace Overlay

/-- The calls on a store. -/
inductive StoreCall where
  | get
  | put
  | delete
  | keys
  | modified
  | size
  deriving DecidableEq, Repr

/-- The call with a name. -/
def StoreCall.ofName? (name : String) : Option StoreCall :=
  match name with
  | "get" => some .get
  | "put" => some .put
  | "delete" => some .delete
  | "list" => some .keys
  | "modified" => some .modified
  | "size" => some .size
  | _ => none

/-- A store and the calls on it that fail. -/
structure FaultyStore (σ : Type) where
  store : σ
  failing : List StoreCall := []
  deriving Repr

namespace FaultyStore

/-- A call that fails, or what the store answers. -/
def guarded {σ α : Type} (faulty : FaultyStore σ) (call : StoreCall)
    (answer : Except StoreError α) : Except StoreError α :=
  if faulty.failing.contains call then .error .refused else answer

instance {σ : Type} [Store σ] : Store (FaultyStore σ) where
  get faulty key := faulty.guarded .get (Store.get faulty.store key)
  put faulty now key content :=
    faulty.guarded .put ((Store.put faulty.store now key content).map ({ faulty with store := · }))
  delete faulty key :=
    faulty.guarded .delete ((Store.delete faulty.store key).map ({ faulty with store := · }))
  keys faulty := faulty.guarded .keys (Store.keys faulty.store)
  modified faulty key := faulty.guarded .modified (Store.modified faulty.store key)
  size faulty key := faulty.guarded .size (Store.size faulty.store key)

end FaultyStore
end Overlay
