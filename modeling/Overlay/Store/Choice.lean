import Overlay.Store

/-! A store of one of two kinds, chosen when the program starts. Whatever it is asked, the chosen
one answers, and it stays the chosen one. -/
namespace Overlay

instance {σ τ : Type} [Store σ] [Store τ] : Store (σ ⊕ τ) where
  get
    | .inl store, key => Store.get store key
    | .inr store, key => Store.get store key
  put
    | .inl store, now, key, content => (Store.put store now key content).map .inl
    | .inr store, now, key, content => (Store.put store now key content).map .inr
  delete
    | .inl store, key => (Store.delete store key).map .inl
    | .inr store, key => (Store.delete store key).map .inr
  keys
    | .inl store => Store.keys store
    | .inr store => Store.keys store
  modified
    | .inl store, key => Store.modified store key
    | .inr store, key => Store.modified store key
  size
    | .inl store, key => Store.size store key
    | .inr store, key => Store.size store key

end Overlay
