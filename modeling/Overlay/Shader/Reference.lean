import Overlay.Disk

/-! References to shader files. A reference points at a file or a directory, on disk or in a tree
held in memory, and it can be read, named, and moved to its container or to an entry inside it.
Sibling lookups move references, so they stay anchored to the place of the preset that asks and
never to the working directory of the program. -/
namespace Overlay

/-- Files in memory by their path without slashes at the ends; a directory exists as far as a file
lies in it. -/
structure MemoryTree where
  files : Table String Bytes := ∅
  deriving DecidableEq, Repr, Inhabited

namespace MemoryTree

/-- A path without the slashes at both ends. -/
def trimSlashes (path : String) : String :=
  String.ofList
    (((path.toList.dropWhile Path.isSlash).reverse.dropWhile Path.isSlash).reverse)

def withFile (tree : MemoryTree) (path : String) (content : Bytes) : MemoryTree :=
  ⟨tree.files.insert (trimSlashes path) content⟩

def ofList (files : List (String × Bytes)) : MemoryTree :=
  files.foldl (fun tree file => tree.withFile file.1 file.2) {}

/-- The top is a directory, and so is what some file lies below. -/
def isDirectory (tree : MemoryTree) (path : String) : Bool :=
  path == "" ||
    tree.files.keys.any fun key => (Text.after? (path ++ "/").toList key.toList).isSome

end MemoryTree

/-- A place to read shader text from. -/
inductive Reference where
  | onDisk (path : String)
  | inMemory (tree : MemoryTree) (path : String)
  deriving DecidableEq, Repr

/-- Why a reference cannot be read. -/
inductive ReadFault where
  | disk (fault : DiskFault)
  /-- A tree in memory has no file at the path. -/
  | noFile (path : String)
  /-- The octets are no text. -/
  | notText (fault : Text.Utf8.Fault)
  deriving DecidableEq, Repr

def ReadFault.message : ReadFault → String
  | .disk fault => fault.message
  | .noFile path => "no file at '" ++ path ++ "'"
  | .notText fault => fault.message

namespace Reference

/-- The pieces of a path, last first. -/
def backwards (path : String) : List String :=
  (Path.pieces path).reverse

/-- The file name shown to a user, when there is one. -/
def displayName? : Reference → Option String
  | .onDisk path => Path.fileName? path
  | .inMemory _ path =>
    match backwards path with
    | name :: _ => if name == "" then none else some name
    | [] => none

def describe : Reference → String
  | .onDisk path => path
  | .inMemory _ path => "memory:/" ++ path

/-- The octets that stand there. -/
def read (disk : Disk) : Reference → Except ReadFault Bytes
  | .onDisk path =>
    match disk.read path with
    | .ok content => .ok content
    | .error fault => .error (.disk fault)
  | .inMemory tree path =>
    match tree.files.get? path with
    | some content => .ok content
    | none => .error (.noFile path)

/-- The container. On disk it is found by folding the text of the absolute path, so it need not
exist; the top of either kind of tree has none. -/
def parent? (disk : Disk) : Reference → Option Reference
  | .onDisk path =>
    match Path.anchor disk.workingDirectory path with
    | [] => none
    | names => some (.onDisk (Path.absolute names.dropLast))
  | .inMemory tree path =>
    if path == "" then none
    else
      match backwards path with
      | _ :: rest => some (.inMemory tree (Path.join rest.reverse))
      | [] => none

/-- The entry of that name in a container, if it exists. -/
def child? (disk : Disk) (name : String) : Reference → Option Reference
  | .onDisk path =>
    let candidate := Path.append path name
    if disk.exists? candidate then some (.onDisk candidate) else none
  | .inMemory tree path =>
    let candidate := if path == "" then name else path ++ "/" ++ name
    if tree.files.contains candidate || tree.isDirectory candidate then
      some (.inMemory tree candidate)
    else none

end Reference

/-- A reference to a place in a tree. -/
def MemoryTree.reference (tree : MemoryTree) (path : String) : Reference :=
  .inMemory tree (trimSlashes path)

end Overlay
