import Overlay.Disk

/-! Stores of cache entries. A store files octets under keys and can say when an entry was written
and how large it is. What the cache may rely on is this interface alone: any call may fail, and a
failing call leaves the store as it was. -/
namespace Overlay

/-- Why a call on a store fails. -/
inductive StoreError where
  | invalidKey (key : String)
  | io (path : String) (fault : DiskFault)
  /-- The store does not answer at all. -/
  | refused
  deriving DecidableEq, Repr

def StoreError.message : StoreError → String
  | .invalidKey key => "invalid cache key '" ++ key ++ "'"
  | .io path fault => "cache I/O error at " ++ path ++ ": " ++ fault.message
  | .refused => "cache store refused the call"

/-- Octets by key. A store that does not keep time itself stamps an entry with the reading handed to
`put`. -/
class Store (σ : Type) where
  get : σ → String → Except StoreError (Option Bytes)
  put : σ → Millis → String → Bytes → Except StoreError σ
  delete : σ → String → Except StoreError σ
  keys : σ → Except StoreError (List String)
  modified : σ → String → Except StoreError (Option Millis)
  size : σ → String → Except StoreError (Option Nat)

namespace Store

/-- The directory below the cache directory that entries live in. -/
def directoryName : String := "shader_cache"

/-- The ending of an entry's file name, without the dot. -/
def entryExtension : String := "cache"

/-- What keys are made of. -/
def isKeyChar (c : Char) : Bool :=
  c.isAlphanum || c == '_' || c == '-'

/-- Keys become file names, so nothing that could lead out of a directory is a key. -/
def isKey (key : String) : Bool :=
  key != "" && key.toList.all isKeyChar

/-- The looser rule for names found in a directory: they are one file name each, whoever chose it.
-/
def isStem (key : String) : Bool :=
  key != "" && key != "." && key != ".." &&
    !key.toList.contains '\x00' && !key.toList.contains '/'

end Store
end Overlay
