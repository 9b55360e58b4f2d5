import Overlay.Proofs.DirectoryEntries
import Overlay.Proofs.DirectoryFrames

/-! What a key can reach. The name of an entry's file is the key with the ending behind it. Neither of
the two rules lets a slash through, and with the ending no key is one of the names that paths
single out, so the path of an accepted key is that of the root and one plain name more, whatever dots,
backslashes and other characters the looser rule lets through. Every call is decided by where that one
path leads, and a call that changes anything changes the file under that name alone. The other calls
leave no store behind, nor do those that fail, so there is nothing that they could have changed. -/
namespace Overlay

/-! ### What a change leaves alone -/

namespace Node

/-- The octets of a file and its stamp. -/
def written? : Node → Option (Bytes × Millis)
  | .file content changed => some (content, changed)
  | .directory .. => none

/-- Nothing lies below what is no directory. -/
theorem at?_below {found : Option Node} (free : ∀ time inner, found ≠ some (.directory time inner))
    (name : String) (rest : List String) : found.bind (Node.at? (name :: rest)) = none := by
  cases found with
  | none => rfl
  | some node =>
    cases node with
    | file content changed => rfl
    | directory time inner => exact absurd rfl (free time inner)

end Node

/-- A change of one name in a directory is seen under that name alone, as long as no directory comes
or goes with it. -/
theorem Directory.at?_change_others {what : Directory → Directory} {name : String}
    (others : ∀ other entries, other ≠ name → (what entries).get? other = Table.get? entries other)
    (free : ∀ entries time inner, (what entries).get? name ≠ some (.directory time inner))
    {names path : List String} {entries : Directory} {own : Millis}
    (before : ∀ time inner,
      (Node.directory own entries).at? (names ++ [name]) ≠ some (.directory time inner))
    (apart : path ≠ names ++ [name]) :
    ((Node.directory own (entries.change what names)).at? path).map Node.written? =
      ((Node.directory own entries).at? path).map Node.written? := by
  induction names generalizing own entries path with
  | nil =>
    have before : ∀ time inner, entries.get? name ≠ some (.directory time inner) := by
      intro time inner held
      refine before time inner ?_
      rw [List.nil_append, Node.at?, held]
      rfl
    cases path with
    | nil => rfl
    | cons other rest =>
      rw [change, Node.at?, Node.at?]
      by_cases same : other = name
      · subst same
        cases rest with
        | nil => exact absurd rfl apart
        | cons next rest => rw [Node.at?_below (free entries), Node.at?_below before]
      · rw [others other entries same]
  | cons first names ih =>
    cases path with
    | nil =>
      rw [change]
      split <;> rfl
    | cons other rest =>
      rw [change]
      split
      · rename_i time inner held
        rw [Node.at?, Node.at?]
        by_cases same : other = first
        · subst same
          rw [Table.get?_insert_self, held, Option.bind_some, Option.bind_some]
          refine ih (fun deep deeper found => before deep deeper ?_) fun same => apart ?_
          · rw [List.cons_append, Node.at?, held]
            exact found
          · rw [same, List.cons_append]
        · rw [Table.get?_insert_of_ne _ _ same]
      · rfl

namespace DirectoryStore

/-- Two stores at one root whose disks are the same but for what lies under some names. -/
structure OnlyChanged (store after : DirectoryStore) (names : List String) (now : Option Node) :
    Prop where
  root : after.root = store.root
  workingDirectory : after.disk.workingDirectory = store.disk.workingDirectory
  present : after.disk.present = store.disk.present
  there : after.disk.node? names = now
  others {path : List String} : path ≠ names →
    (after.disk.node? path).map Node.written? = (store.disk.node? path).map Node.written?

variable {store after : DirectoryStore} {key : String} {place : List String}

theorem Open.onlyChanged (opens : store.Open key place) (what : Directory → Directory)
    (others : ∀ name entries, name ≠ fileName key →
      (what entries).get? name = Table.get? entries name)
    (free : ∀ entries time inner, (what entries).get? (fileName key) ≠ some (.directory time inner)) :
    OnlyChanged store (store.changing what place) (place.reverse ++ [fileName key])
      ((what (store.disk.entriesAt place.reverse)).get? (fileName key)) where
  root := rfl
  workingDirectory := rfl
  present := rfl
  there := by rw [Disk.node?_concat, (opens.changing others).2]
  others apart := by
    refine Directory.at?_change_others others free (fun time inner found => ?_) apart
    have held := Disk.node?_concat store.disk place.reverse (fileName key)
    exact opens.free (held.symm.trans found)

/-- Putting an entry changes its file alone. -/
theorem put_onlyChanged {content : Bytes} (put : store.put key content = .ok after) :
    ∃ place, store.place? = some place ∧
      OnlyChanged store after (place.reverse ++ [fileName key])
        (some (.file content (Disk.stamp store.disk.present))) := by
  obtain ⟨-, place, opens, rfl⟩ := put_ok put
  have only := opens.onlyChanged
    (·.insert (fileName key) (.file content (Disk.stamp store.disk.present)))
    (fun name entries apart => Table.get?_insert_of_ne entries _ apart)
    (fun entries time inner held => by
      rw [Table.get?_insert_self] at held
      cases held)
  rw [Table.get?_insert_self] at only
  exact ⟨place, opens.led, only⟩

/-- Deleting an entry changes its file alone, or nothing where it is missing. -/
theorem delete_onlyChanged (deleted : store.delete key = .ok after) :
    (after = store ∧ ∀ place, store.place? = some place →
        store.disk.node? (place.reverse ++ [fileName key]) = none) ∨
      ∃ place, store.place? = some place ∧
        OnlyChanged store after (place.reverse ++ [fileName key]) none := by
  obtain ⟨-, ⟨same, nothing, -⟩ | ⟨place, content, changed, led, held, -, rfl⟩⟩ :=
    delete_cases deleted
  · refine .inl ⟨same, fun place led => ?_⟩
    rw [Disk.node?_concat, nothing place led]
  · have only := (Open.of_file led held).onlyChanged (·.erase (fileName key))
      (fun name entries apart => Table.get?_erase_of_ne entries apart)
      (fun entries time inner found => by
        rw [Table.get?_erase_self] at found
        cases found)
    rw [Table.get?_erase_self] at only
    exact .inr ⟨place, led, only⟩

/-! ### One path for each key -/

/-- The path of an entry is that of the root and one name more. -/
theorem components_path (store : DirectoryStore) (stem : Store.isStem key = true) :
    Path.components (store.path key) =
      Path.components store.root ++ [.name (fileName key)] :=
  Path.components_append store.root (plain_fileName stem)

/-- Different keys have different paths. -/
theorem path_inj {one other : String} (stem : Store.isStem one = true)
    (also : Store.isStem other = true) (same : store.path one = store.path other) :
    one = other := by
  have first := store.components_path stem
  rw [same, store.components_path also] at first
  have last := (List.cons.inj (List.append_cancel_left first)).1
  exact (fileName_inj (Path.Component.name.inj last)).symm

/-- What a call about a key asks for and changes: it goes by a single path, that of one name below the
root. -/
structure Confined (store : DirectoryStore) (key : String) : Prop where
  child : Path.components (store.path key) = Path.components store.root ++ [.name (fileName key)]
  anchored : Path.isAbsolute (store.path key) = Path.isAbsolute store.root
  /-- The path leads into the directory that the root leads to, if it leads anywhere. -/
  inside {names : List String} :
    ((∃ node, store.disk.locate (store.path key) = .ok (.found names node)) ∨
      ∃ closed, store.disk.locate (store.path key) = .ok (.missing names closed)) →
    ∃ place, store.place? = some place ∧ names = place.reverse ++ [fileName key]
  /-- Nothing on a disk decides a call but where the path leads. -/
  asks {other : DirectoryStore} : other.root = store.root →
    other.disk.locate (store.path key) = store.disk.locate (store.path key) →
    SameAnswers key other store
  puts {content : Bytes} {after : DirectoryStore} : store.put key content = .ok after →
    ∃ place, store.place? = some place ∧
      OnlyChanged store after (place.reverse ++ [fileName key])
        (some (.file content (Disk.stamp store.disk.present)))
  deletes {after : DirectoryStore} : store.delete key = .ok after →
    (after = store ∧ ∀ place, store.place? = some place →
        store.disk.node? (place.reverse ++ [fileName key]) = none) ∨
      ∃ place, store.place? = some place ∧
        OnlyChanged store after (place.reverse ++ [fileName key]) none

theorem confined_of_isStem (stem : Store.isStem key = true) : store.Confined key where
  child := store.components_path stem
  anchored := Path.isAbsolute_append store.root (plain_fileName stem)
  inside {names} leads := by
    have enters := store.locate_enters stem
    rcases leads with ⟨node, leads⟩ | ⟨closed, leads⟩
    · rw [leads] at enters
      cases enters with
      | found led held => exact ⟨_, led, rfl⟩
    · rw [leads] at enters
      cases enters with
      | missing led absent there => exact ⟨_, led, rfl⟩
  asks {other} root located := by
    refine sameAnswers_of_locate root fun _ => ?_
    rw [path, root]
    exact located
  puts := put_onlyChanged
  deletes := delete_onlyChanged

/-! ### Refused keys -/

/-- A call that checks its key first refuses it exactly if it does not pass. -/
theorem refused_iff {α : Type} {valid : Bool} {path : String} {call : String → Except StoreError α}
    (answers : ∀ path, call path ≠ .error (.invalidKey key)) :
    ((if valid then .ok path else .error (.invalidKey key)) >>= call) = .error (.invalidKey key) ↔
      valid = false := by
  cases valid with
  | true => exact iff_of_false (answers path) nofun
  | false => exact iff_of_true rfl rfl

theorem map_ne_error {α β : Type} {of : α → β} {answer : Except StoreError α} {fault : StoreError}
    (answers : answer ≠ .error fault) : of <$> answer ≠ .error fault := by
  cases answer with
  | ok value => exact nofun
  | error other =>
    intro same
    cases same
    exact answers rfl

theorem orMissing_ne_invalidKey {α : Type} {path : String} {answer : Except DiskFault α} :
    orMissing path answer ≠ .error (.invalidKey key) := by
  cases answer with
  | ok value => exact nofun
  | error fault => cases fault <;> exact nofun

variable (store : DirectoryStore) (key)

theorem get_refused_iff : store.get key = .error (.invalidKey key) ↔ Store.isKey key = false :=
  refused_iff fun _ => orMissing_ne_invalidKey

theorem put_refused_iff (content : Bytes) :
    store.put key content = .error (.invalidKey key) ↔ Store.isKey key = false := by
  refine refused_iff fun path => ?_
  cases store.disk.write path content <;> exact nofun

theorem delete_refused_iff :
    store.delete key = .error (.invalidKey key) ↔ Store.isStem key = false := by
  refine refused_iff fun path => ?_
  cases store.disk.removeFile path with
  | ok disk => exact nofun
  | error fault => cases fault <;> exact nofun

theorem modified_refused_iff :
    store.modified key = .error (.invalidKey key) ↔ Store.isStem key = false :=
  refused_iff fun _ => map_ne_error orMissing_ne_invalidKey

theorem size_refused_iff :
    store.size key = .error (.invalidKey key) ↔ Store.isStem key = false :=
  refused_iff fun _ => map_ne_error orMissing_ne_invalidKey

end DirectoryStore

open DirectoryStore in
/-- No key reaches out of the directory of a store. A call refuses a key without asking the disk, or
it goes by the path of the root and one name more, which leads nowhere but into the directory that the
root leads to; where that path leads decides what is answered, and putting and deleting change what
lies there and nothing else. What putting does not refuse no other call refuses, and different keys
have different paths. -/
theorem keys_stay_in_directory (store : DirectoryStore) :
    (∀ key, (store.get key = .error (.invalidKey key) ↔ Store.isKey key = false) ∧
      (∀ content, store.put key content = .error (.invalidKey key) ↔ Store.isKey key = false) ∧
      (store.delete key = .error (.invalidKey key) ↔ Store.isStem key = false) ∧
      (store.modified key = .error (.invalidKey key) ↔ Store.isStem key = false) ∧
      (store.size key = .error (.invalidKey key) ↔ Store.isStem key = false)) ∧
    (∀ key content, store.put key content ≠ .error (.invalidKey key) →
      store.get key ≠ .error (.invalidKey key) ∧ store.delete key ≠ .error (.invalidKey key) ∧
      store.modified key ≠ .error (.invalidKey key) ∧ store.size key ≠ .error (.invalidKey key) ∧
      Store.isStem key = true) ∧
    (∀ key, Store.isStem key = true → store.Confined key) ∧
    (∀ names changed entries,
      store.disk.locate store.root = .ok (.found names (.directory changed entries)) →
        store.place? = some names.reverse) ∧
    (∀ one other, Store.isStem one = true → Store.isStem other = true → one ≠ other →
      store.path one ≠ store.path other ∧ fileName one ≠ fileName other) := by
  refine ⟨fun key => ⟨store.get_refused_iff key, store.put_refused_iff key,
      store.delete_refused_iff key, store.modified_refused_iff key, store.size_refused_iff key⟩,
    fun key content accepted => ?_, fun key => confined_of_isStem,
    fun names changed entries located => (place?_of_locate located).1,
    fun one other stem also apart => ⟨fun same => apart (path_inj stem also same),
      fun same => apart (fileName_inj same)⟩⟩
  rw [ne_eq, put_refused_iff, Bool.not_eq_false] at accepted
  have stem := Store.isStem_of_isKey accepted
  simp only [ne_eq, get_refused_iff, delete_refused_iff, modified_refused_iff, size_refused_iff,
    Bool.not_eq_false]
  exact ⟨accepted, stem, stem, stem, stem⟩

open DirectoryStore in
/-- Dots and backslashes in front of a name do not climb out of a directory that is reached through
another one; a slash is refused. What is put there is one file. -/
theorem keys_stay_in_directory_beside :
    (beside ∅ 5).delete "../x" = .error (.invalidKey "../x") ∧
    Path.components ((beside ∅ 5).path "..\\x") =
      [.name "a", .up, .name "c", .name "..\\x.cache"] ∧
    ∃ after, (beside ∅ 5).put "x" [] = .ok after ∧
      OnlyChanged (beside ∅ 5) after ["c", "x.cache"] (some (.file [] 5)) := by
  obtain ⟨refuses, -, confined, leads, -⟩ := keys_stay_in_directory (beside ∅ 5)
  have root : Path.components "a/../c/" = [.name "a", .up, .name "c"] := by decide +kernel
  have odd : fileName "..\\x" = "..\\x.cache" := by decide
  have named : fileName "x" = "x.cache" := by decide
  have stands := beside_stands ∅ 5
  obtain ⟨changed, located⟩ := stands.located
  have admits : (beside ∅ 5).Admits "x" := ⟨by decide, by decide, by decide⟩
  have put := (stands.founded.put admits (by decide) (fun _ _ => nofun) []).1
  obtain ⟨place, led, only⟩ := (confined "x" admits.stem).puts put
  rw [leads _ _ _ located] at led
  cases led
  rw [named] at only
  refine ⟨(refuses "../x").2.2.1.mpr (by decide), ?_, _, put, only⟩
  have child := (confined "..\\x" (by decide)).child
  rw [odd] at child
  exact child.trans (congrArg (· ++ _) root)

end Overlay
