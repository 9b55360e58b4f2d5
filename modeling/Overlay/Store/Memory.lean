import Overlay.Store

/-! A store in memory. It takes the same keys as a directory, but it looks up, measures and forgets
under any name, because a name that is no key simply holds nothing. -/
namespace Overlay

structure MemoryEntry where
  content : Bytes
  modified : Millis
  deriving DecidableEq, Repr

structure MemoryStore where
  entries : Table String MemoryEntry := ∅
  deriving DecidableEq, Repr, Inhabited

namespace MemoryStore

def put (store : MemoryStore) (now : Millis) (key : String) (content : Bytes) :
    Except StoreError MemoryStore :=
  if Store.isKey key then .ok ⟨store.entries.insert key ⟨content, now⟩⟩
  else .error (.invalidKey key)

def delete (store : MemoryStore) (key : String) : MemoryStore :=
  ⟨store.entries.erase key⟩

instance : Store MemoryStore where
  get store key := .ok ((store.entries.get? key).map (·.content))
  put := put
  delete store key := .ok (store.delete key)
  keys store := .ok store.entries.keys
  modified store key := .ok ((store.entries.get? key).map (·.modified))
  size store key := .ok ((store.entries.get? key).map (·.content.length))

end MemoryStore
end Overlay
