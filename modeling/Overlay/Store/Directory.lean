import Overlay.Store

/-! A store in a directory: one file an entry, named for its key. Reading and writing take keys
only. What else lies in the directory with the right ending is listed under its stem all the same,
and the stems that are listed can be measured and removed. An entry that is missing is no failure,
and its stamp is the one the disk keeps. -/
namespace Overlay

/-- A directory of a disk. -/
structure DirectoryStore where
  root : String
  disk : Disk
  deriving Repr

namespace DirectoryStore

/-- Opens a directory, creating it where it is missing; and the disk after that, for what is created
on the way to a failure stays. -/
def openAt (disk : Disk) (root : String) : Except StoreError DirectoryStore × Disk :=
  match disk.makeDirectories root with
  | (.ok _, disk) => (.ok ⟨root, disk⟩, disk)
  | (.error fault, disk) => (.error (.io root fault), disk)

/-- Opens the directory of entries below a cache directory. -/
def openIn (disk : Disk) (base : String) : Except StoreError DirectoryStore × Disk :=
  openAt disk (Path.append base Store.directoryName)

/-- The file of a name. -/
def path (store : DirectoryStore) (key : String) : String :=
  Path.append store.root (key ++ "." ++ Store.entryExtension)

/-- The file of a key. -/
def entryPath (store : DirectoryStore) (key : String) : Except StoreError String :=
  if Store.isKey key then .ok (store.path key) else .error (.invalidKey key)

/-- The file of a name that may have been listed. -/
def listedPath (store : DirectoryStore) (key : String) : Except StoreError String :=
  if Store.isStem key then .ok (store.path key) else .error (.invalidKey key)

/-- A missing file is an answer. -/
def orMissing {α : Type} (path : String) : Except DiskFault α → Except StoreError (Option α)
  | .ok value => .ok (some value)
  | .error .notFound => .ok none
  | .error fault => .error (.io path fault)

def get (store : DirectoryStore) (key : String) : Except StoreError (Option Bytes) := do
  let path ← store.entryPath key
  orMissing path (store.disk.read path)

def put (store : DirectoryStore) (key : String) (content : Bytes) :
    Except StoreError DirectoryStore := do
  let path ← store.entryPath key
  match store.disk.write path content with
  | .ok disk => .ok { store with disk }
  | .error fault => .error (.io path fault)

def delete (store : DirectoryStore) (key : String) : Except StoreError DirectoryStore := do
  let path ← store.listedPath key
  match store.disk.removeFile path with
  | .ok disk => .ok { store with disk }
  | .error .notFound => .ok store
  | .error fault => .error (.io path fault)

/-- The key that a file name stands for. -/
def keyOf? (fileName : String) : Option String :=
  match Path.splitExtension fileName with
  | (stem, some extension) => if extension == Store.entryExtension then some stem else none
  | (_, none) => none

def keys (store : DirectoryStore) : Except StoreError (List String) :=
  match store.disk.list store.root with
  | .ok names =>
    .ok ((Table.ofList ((names.filterMap keyOf?).map fun key => (key, ()))).keys)
  | .error fault => .error (.io store.root fault)

def modified (store : DirectoryStore) (key : String) : Except StoreError (Option Millis) := do
  let path ← store.listedPath key
  (·.map Node.changed) <$> orMissing path (store.disk.stat path)

def size (store : DirectoryStore) (key : String) : Except StoreError (Option Nat) := do
  let path ← store.listedPath key
  (·.map Node.size) <$> orMissing path (store.disk.stat path)

instance : Store DirectoryStore where
  get := get
  put store _ := store.put
  delete := delete
  keys := keys
  modified := modified
  size := size

end DirectoryStore
end Overlay
