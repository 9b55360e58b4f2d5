import Overlay.Duration
import Overlay.Table
import Overlay.Text.Utf8

/-! What lies on a disk: files with their octets, and directories with their entries by name, each
with the time of its last change. A node is reached by the names that lead to it from a directory,
so nothing can outlive the directory it lies in. Changing a directory by its names is seen by
whoever follows the same names. -/
namespace Overlay

inductive Node where
  | directory (changed : Millis) (entries : Table String Node)
  | file (content : Bytes) (changed : Millis)
  deriving Repr

/-- What lies in a directory. -/
abbrev Directory := Table String Node

namespace Node

def changed : Node → Millis
  | .directory changed _ => changed
  | .file _ changed => changed

/-- How many octets there are. A directory occupies one block. -/
def size : Node → Nat
  | .directory .. => 4096
  | .file content _ => content.length

/-- The node that names lead to. -/
def at? : List String → Node → Option Node
  | [], node => some node
  | name :: rest, .directory _ entries => (entries.get? name).bind (at? rest)
  | _ :: _, .file .. => none

mutual

/-- Everything below a node with the names that lead there after those that lead to the node, last
name first. What lies in a directory comes after it. -/
def contents (reached : List String) : Node → List (List String × Node)
  | .directory _ ⟨entries⟩ => contentsOf reached entries
  | .file .. => []

/-- Entries of a directory and everything below them. -/
def contentsOf (reached : List String) : List (String × Node) → List (List String × Node)
  | [] => []
  | (name, node) :: rest =>
    ((name :: reached).reverse, node) ::
      (contents (name :: reached) node ++ contentsOf reached rest)

end

end Node

namespace Directory

/-- Changes the directory that names lead to. Names that lead to none change nothing. -/
def change (what : Directory → Directory) : List String → Directory → Directory
  | [], entries => what entries
  | name :: rest, entries =>
    match entries.get? name with
    | some (.directory changed inner) =>
      entries.insert name (.directory changed (change what rest inner))
    | _ => entries

/-- A directory that has been changed is found where it was. -/
theorem at?_change (what : Directory → Directory) {names : List String}
    {entries inner : Directory} {own changed : Millis}
    (found : (Node.directory own entries).at? names = some (.directory changed inner)) :
    (Node.directory own (entries.change what names)).at? names =
      some (.directory changed (what inner)) := by
  induction names generalizing own entries with
  | nil =>
    simp only [Node.at?, Option.some.injEq, Node.directory.injEq] at found
    obtain ⟨rfl, rfl⟩ := found
    rfl
  | cons name rest ih =>
    rw [Node.at?] at found
    obtain ⟨node, held, found⟩ := Option.bind_eq_some_iff.1 found
    cases node with
    | directory time deeper =>
      simp only [change, held, Node.at?, Table.get?_insert_self, Option.bind_some]
      exact ih found
    | file content time => cases rest <;> simp [Node.at?] at found

end Directory
end Overlay
