import Overlay.Number.Binary

/-! TOML documents as trees. Tables keep their entries in the order in which they were opened, and
remember how they came to be: a table that has been written out or closed in braces takes no more
keys from elsewhere, one that a longer path merely implied may still be written out, and one that
dotted keys opened takes dotted keys only. -/
namespace Overlay.Toml

/-- How a table came to be. -/
inductive Opening where
  /-- By a header of its own. -/
  | header
  /-- By a header of a table below it. -/
  | implied
  /-- By a dotted key. -/
  | dotted
  /-- In braces. -/
  | inline
  deriving DecidableEq, Repr

inductive Value where
  | text (s : String)
  | integer (n : Int)
  | float (x : Binary)
  | boolean (b : Bool)
  /-- A date, a time, or both. -/
  | moment
  | array (items : List Value)
  | table (opening : Opening) (entries : List (String × Value))
  /-- An array of tables, each with a header of its own: the last one, and the others before it,
  latest first. -/
  | tables (last : List (String × Value)) (earlier : List (List (String × Value)))
  deriving Repr

/-- What a table holds. -/
abbrev Entries := List (String × Value)

/-- The tables of an array in their order. -/
def Value.inOrder (last : Entries) (earlier : List Entries) : List Value :=
  (last :: earlier).reverse.map (.table .header)

namespace Entries

def find (name : String) : Entries → Option Value
  | [] => none
  | (other, value) :: rest => if name = other then some value else find name rest

/-- Another value under a name that is there, in its place. -/
def replace (name : String) (value : Value) : Entries → Entries
  | [] => []
  | (other, held) :: rest =>
    if name = other then (name, value) :: rest else (other, held) :: replace name value rest

def erase (name : String) (entries : Entries) : Entries :=
  entries.filter fun entry => entry.1 != name

/-- Sets a key, which must be new, below the tables that a dotted key opens. The table it ends up in
must be one that takes it: any for a plain key, a dotted one after a path. -/
def assign? (key : String) (value : Value) : List String → Bool → Entries → Option Entries
  | [], takes, entries =>
    if takes && (entries.find key).isNone then some (entries ++ [(key, value)]) else none
  | name :: rest, _, entries =>
    match entries.find name with
    | none =>
      (assign? key value rest true []).map fun inner => entries ++ [(name, .table .dotted inner)]
    | some (.table .dotted inner) =>
      (assign? key value rest true inner).map fun inner =>
        entries.replace name (.table .dotted inner)
    | some (.table .implied inner) =>
      (assign? key value rest false inner).map fun inner =>
        entries.replace name (.table .implied inner)
    | some (.tables last earlier) =>
      (assign? key value rest false last).map fun last =>
        entries.replace name (.tables last earlier)
    | some _ => none

/-- Changes the table that a header's path leads to. Tables missing on the way are implied, and an
array of tables leads to its last one. -/
def changeAt? (change : Entries → Option Entries) : List String → Entries → Option Entries
  | [], entries => change entries
  | name :: rest, entries =>
    match entries.find name with
    | none => (changeAt? change rest []).map fun inner => entries ++ [(name, .table .implied inner)]
    | some (.table .inline _) => none
    | some (.table opening inner) =>
      (changeAt? change rest inner).map fun inner => entries.replace name (.table opening inner)
    | some (.tables last earlier) =>
      (changeAt? change rest last).map fun last => entries.replace name (.tables last earlier)
    | some _ => none

/-- Opens a table. One that was implied so far moves behind the others. -/
def openTable? (key : String) (entries : Entries) : Option Entries :=
  match entries.find key with
  | none => some (entries ++ [(key, .table .header [])])
  | some (.table .implied inner) => some (entries.erase key ++ [(key, .table .header inner)])
  | some _ => none

/-- Opens one more table of an array of tables. -/
def openAnother? (key : String) (entries : Entries) : Option Entries :=
  match entries.find key with
  | none => some (entries ++ [(key, .tables [] [])])
  | some (.tables last earlier) => some (entries.replace key (.tables [] (last :: earlier)))
  | some _ => none

end Entries

/-- What one line says. A path is never empty. -/
inductive Statement where
  | assign (path : List String) (key : String) (value : Value)
  | header (path : List String) (key : String)
  | another (path : List String) (key : String)
  deriving Repr

/-- The document so far, and the table that keys go into. -/
structure Document where
  entries : Entries := []
  current : List String := []
  deriving Repr

def Document.extend? (document : Document) : Statement → Option Document
  | .assign path key value =>
    (Entries.changeAt? (Entries.assign? key value path true) document.current document.entries).map
      fun entries => { document with entries }
  | .header path key =>
    (Entries.changeAt? (Entries.openTable? key) path document.entries).map
      fun entries => ⟨entries, path ++ [key]⟩
  | .another path key =>
    (Entries.changeAt? (Entries.openAnother? key) path document.entries).map
      fun entries => ⟨entries, path ++ [key]⟩

def Document.ofStatements? (document : Document) : List Statement → Option Document
  | [] => some document
  | statement :: rest =>
    (document.extend? statement).bind fun document => document.ofStatements? rest

end Overlay.Toml
