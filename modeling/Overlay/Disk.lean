import Overlay.Disk.Node
import Overlay.Disk.Path

/-! A disk as a value: what lies below the root, and a working directory. An operation fails for the
cause that the operating system would give: a missing name, a file where a directory is needed, a
name or a path that is too long. One that takes a single step then changes nothing. One that takes
several answers together with the disk, because what the steps before the failing one did stays
done. Two dots climb from the directory that was really reached, so a path through a directory that
does not exist leads nowhere even where folding its text would lead back. -/
namespace Overlay

/-- Why an operation on a disk fails. -/
inductive DiskFault where
  | notFound
  | exists
  | notDirectory
  | isDirectory
  | nameTooLong
  | notEmpty
  | busy
  | invalid
  | nulInName
  deriving DecidableEq, Repr

def DiskFault.message : DiskFault → String
  | .notFound => "No such file or directory (os error 2)"
  | .exists => "File exists (os error 17)"
  | .notDirectory => "Not a directory (os error 20)"
  | .isDirectory => "Is a directory (os error 21)"
  | .nameTooLong => "File name too long (os error 36)"
  | .notEmpty => "Directory not empty (os error 39)"
  | .busy => "Device or resource busy (os error 16)"
  | .invalid => "Invalid argument (os error 22)"
  | .nulInName => "file name contained an unexpected NUL byte"

/-- What lies in the root, the names that lead to the working directory, and what the present is.
The root itself is always there. -/
structure Disk where
  root : Directory := ∅
  workingDirectory : List String := []
  present : Millis := 0
  deriving Repr

namespace Disk

/-- The longest name in octets. -/
def longestName : Nat := 255

/-- The longest path in octets. -/
def longestPath : Nat := 4095

/-- The latest time that a stamp can tell; a later one is cut down to it. -/
def latestStamp : Millis := 15032385535000

/-- A time as a disk keeps it. -/
def stamp (time : Millis) : Millis :=
  min time latestStamp

/-- What the names lead to from the root. -/
def node? (disk : Disk) (names : List String) : Option Node :=
  (Node.directory 0 disk.root).at? names

/-- What a path that has come to a place goes on from. A directory that was removed under it is as
good as empty. -/
def standing (disk : Disk) (names : List String) : Node :=
  (disk.node? names).getD (.directory 0 ∅)

/-- Where a path leads. -/
inductive Place where
  | found (names : List String) (node : Node)
  /-- Only the last name is missing; a slash after it says that it has to be a directory. -/
  | missing (names : List String) (mustBeDirectory : Bool)
  deriving Repr

/-- Follows the pieces of a path from a node that has been reached by names, last name first. A name
is missing only where it could be added: the directory it would lie in has to be there still. -/
def walk (disk : Disk) (reached : List String) (node : Node) :
    List String → Except DiskFault Place
  | [] => .ok (.found reached.reverse node)
  | piece :: rest =>
    match node with
    | .file .. => .error .notDirectory
    | .directory _ entries =>
      if Path.isIdle piece then walk disk reached node rest
      else if piece == ".." then walk disk reached.tail (disk.standing reached.tail.reverse) rest
      else if longestName < (octets piece).length then .error .nameTooLong
      else
        match entries.get? piece with
        | some next => walk disk (piece :: reached) next rest
        | none =>
          if rest.all (· == "") && (disk.node? reached.reverse).isSome then
            .ok (.missing (piece :: reached).reverse (!rest.isEmpty))
          else .error .notFound

/-- Refuses a path that leads nowhere on any disk. -/
def permit (path : String) : Except DiskFault Unit :=
  if path.toList.contains '\x00' then .error .nulInName
  else if path == "" then .error .notFound
  else if longestPath < (octets path).length then .error .nameTooLong
  else .ok ()

/-- Follows a path from the root or the working directory. -/
def follow (disk : Disk) (path : String) : Except DiskFault Place :=
  let start := if Path.isAbsolute path then [] else disk.workingDirectory
  walk disk start.reverse (disk.standing start) (Path.pieces path)

def locate (disk : Disk) (path : String) : Except DiskFault Place := do
  permit path
  disk.follow path

/-- What a path names. -/
def stat (disk : Disk) (path : String) : Except DiskFault Node := do
  match ← disk.locate path with
  | .found _ node => .ok node
  | .missing .. => .error .notFound

def exists? (disk : Disk) (path : String) : Bool :=
  match disk.stat path with
  | .ok _ => true
  | .error _ => false

def isDirectory (disk : Disk) (path : String) : Bool :=
  match disk.stat path with
  | .ok (.directory ..) => true
  | _ => false

def read (disk : Disk) (path : String) : Except DiskFault Bytes := do
  match ← disk.stat path with
  | .file content _ => .ok content
  | .directory .. => .error .isDirectory

/-- Changes the entry that the names lead to, given its name and the directory it lies in. -/
def change (disk : Disk) (what : String → Directory → Directory) (names : List String) : Disk :=
  match names.getLast? with
  | some name => { disk with root := disk.root.change (what name) names.dropLast }
  | none => disk

/-- Puts a node where the names lead. -/
def put (disk : Disk) (names : List String) (node : Node) : Disk :=
  disk.change (fun name entries => entries.insert name node) names

/-- Takes away what the names lead to. -/
def remove (disk : Disk) (names : List String) : Disk :=
  disk.change (fun name entries => entries.erase name) names

/-- The file holds these octets afterwards; it is created when only its name is missing. -/
def writeAt (disk : Disk) (path : String) (content : Bytes) (changed : Millis) :
    Except DiskFault Disk := do
  match ← disk.locate path with
  | .found _ (.directory ..) => .error .isDirectory
  | .found names (.file ..) => .ok (disk.put names (.file content (stamp changed)))
  | .missing _ true => .error .isDirectory
  | .missing names false => .ok (disk.put names (.file content (stamp changed)))

def write (disk : Disk) (path : String) (content : Bytes) : Except DiskFault Disk :=
  disk.writeAt path content disk.present

def removeFile (disk : Disk) (path : String) : Except DiskFault Disk := do
  match ← disk.locate path with
  | .found _ (.directory ..) => .error .isDirectory
  | .found names (.file ..) => .ok (disk.remove names)
  | .missing .. => .error .notFound

/-- Creates one directory. Slashes after its name say nothing, not even after the name of a file. -/
def makeDirectory (disk : Disk) (path : String) : Except DiskFault Disk := do
  permit path
  match ← disk.follow (Path.withoutEnd path) with
  | .found .. => .error .exists
  | .missing names _ => .ok (disk.put names (.directory (stamp disk.present) ∅))

/-- Creates one directory unless it is there. -/
def ensureDirectory (disk : Disk) (path : String) : Except DiskFault Disk :=
  match disk.makeDirectory path with
  | .error .exists => if disk.isDirectory path then .ok disk else .error .exists
  | made => made

/-- What an operation of several steps answers after its last one; a disk that a failing step cannot
change is the one it began with. -/
def finish (disk : Disk) : Except DiskFault Disk → Except DiskFault Unit × Disk
  | .ok changed => (.ok (), changed)
  | .error fault => (.error fault, disk)

/-- Creates a directory and the ones it lies in, as far as they are missing. The path gets shorter
with every parent, so its length is fuel enough. -/
def makeDirectoriesWithin : Nat → Disk → String → Except DiskFault Unit × Disk
  | 0, disk, _ => (.error .notFound, disk)
  | fuel + 1, disk, path =>
    if path == "" then (.ok (), disk)
    else
      match disk.ensureDirectory path, Path.parent? path with
      | .error .notFound, some parent =>
        match makeDirectoriesWithin fuel disk parent with
        | (.ok _, disk) => disk.finish (disk.ensureDirectory path)
        | failed => failed
      | made, _ => disk.finish made

/-- Creates a directory and the ones it lies in. What is created on the way to a failure stays. -/
def makeDirectories (disk : Disk) (path : String) : Except DiskFault Unit × Disk :=
  makeDirectoriesWithin (path.length + 1) disk path

/-- Writes a file and the directories it lies in. The directories stay when the file cannot be
written, and the file is tried even when they cannot be created. -/
def place (disk : Disk) (path : String) (content : Bytes) (changed : Millis) :
    Except DiskFault Unit × Disk :=
  let disk := match Path.parent? path with
    | some parent => (disk.makeDirectories parent).2
    | none => disk
  disk.finish (disk.writeAt path content changed)

/-- The names in a directory. -/
def list (disk : Disk) (path : String) : Except DiskFault (List String) := do
  match ← disk.locate path with
  | .found _ (.directory _ entries) => .ok entries.keys
  | .found _ (.file ..) => .error .notDirectory
  | .missing .. => .error .notFound

/-- Empties the directory that the names lead to. -/
def clear (disk : Disk) (names : List String) : Disk :=
  { disk with root := disk.root.change (fun _ => ∅) names }

/-- Removes a directory in which nothing is left. Only a name takes it away: dots at the end of the
path are refused, and the root stays. -/
def removeDirectory (disk : Disk) (path : String) : Except DiskFault Disk := do
  match ← disk.locate path with
  | .found names (.directory _ entries) =>
    match (Path.pieces (Path.withoutEnd path)).getLast? with
    | some "." => .error .invalid
    | some ".." => .error .notEmpty
    | _ =>
      if names.isEmpty then .error .busy
      else if entries.isEmpty then .ok (disk.remove names)
      else .error .notEmpty
  | .found _ (.file ..) => .error .notDirectory
  | .missing .. => .error .notFound

/-- Removes a directory with all that lies below it: empties it, then removes it by the same path. A
path that leads through what was just removed leads nowhere, and then nothing remains to be done. -/
def removeAll (disk : Disk) (path : String) : Except DiskFault Unit × Disk :=
  match disk.locate path with
  | .ok (.found names (.directory ..)) =>
    let disk := disk.clear names
    match disk.removeDirectory path with
    | .error .notFound => (.ok (), disk)
    | removed => disk.finish removed
  | .ok (.found _ (.file ..)) => (.error .notDirectory, disk)
  | .ok (.missing ..) => (.error .notFound, disk)
  | .error fault => (.error fault, disk)

/-- The files below the working directory with their sizes, by relative path. -/
def files (disk : Disk) : List (String × Nat) :=
  (Table.ofList (((disk.standing disk.workingDirectory).contents []).filterMap fun (names, node) =>
    match node with
    | .file content _ => some (Path.join names, content.length)
    | .directory .. => none)).entries

end Disk
end Overlay
