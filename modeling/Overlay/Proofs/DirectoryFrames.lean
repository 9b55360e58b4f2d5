import Overlay.Proofs.DirectoryContract
import Overlay.Proofs.StoreFrames

/-! Files in a directory do not stand in each other's way. Every path of a store goes through its
root and then to one file, so when a file has been deleted the paths of the others are walked as
before, and where they could not be walked they fail for the same cause. Nothing is asked of the
directory: it may be missing, and its path may climb out of a working directory that was removed. -/
namespace Overlay

/-! ### Walks past a file that has been taken away -/

/-- A change after which a directory has only entries that it had. -/
def Directory.Sheds (what : Directory → Directory) : Prop :=
  ∀ entries name node, (what entries).get? name = some node → entries.get? name = some node

theorem Directory.sheds_erase (name : String) : Directory.Sheds (·.erase name) :=
  fun _ _ _ found => (Table.get?_of_get?_erase found).2

/-- Names that lead nowhere lead nowhere after such a change. -/
theorem Directory.at?_of_change {what : Directory → Directory} (sheds : Directory.Sheds what)
    {names path : List String} {entries : Directory} {own : Millis}
    (there : ((Node.directory own (entries.change what names)).at? path).isSome = true) :
    ((Node.directory own entries).at? path).isSome = true := by
  induction names generalizing own entries path with
  | nil =>
    cases path with
    | nil => rfl
    | cons name rest =>
      obtain ⟨node, found⟩ := Option.isSome_iff_exists.mp there
      rw [change, Node.at?] at found
      obtain ⟨next, held, found⟩ := Option.bind_eq_some_iff.mp found
      rw [Node.at?, sheds _ _ _ held, Option.bind_some, found]
      rfl
  | cons first names ih =>
    rw [change] at there
    split at there
    · rename_i time inner held
      cases path with
      | nil => rfl
      | cons name rest =>
        rw [Node.at?] at there ⊢
        by_cases same : name = first
        · subst same
          rw [Table.get?_insert_self, Option.bind_some] at there
          rw [held, Option.bind_some]
          exact ih there
        · rwa [Table.get?_insert_of_ne _ _ same] at there
    · exact there

namespace Disk
variable {disk : Disk} {what : Directory → Directory} {names : List String}

/-- What a walk can go on from, it can go on from after the change. -/
theorem standing_changing (keeps : Directory.KeepsDirectories what (disk.entriesAt names))
    (sheds : Directory.Sheds what) {path : List String} {time : Millis} {inner : Directory}
    (stands : disk.standing path = .directory time inner) :
    ∃ time inner, (disk.changing what names).standing path = .directory time inner := by
  cases there : disk.node? path with
  | some node =>
    obtain rfl : node = .directory time inner := by rw [← stands, standing_of_there there]
    obtain ⟨after, still⟩ := there_changing keeps there
    exact ⟨time, after, standing_of_there still⟩
  | none =>
    cases after : (disk.changing what names).node? path with
    | none => exact ⟨0, ∅, by rw [standing, after]; rfl⟩
    | some node =>
      have before : (disk.node? path).isSome = true :=
        Directory.at?_of_change sheds (Option.isSome_iff_exists.mpr ⟨node, after⟩)
      rw [there] at before
      cases before

/-- A walk that gets to a name goes through the pieces before it, before the change and after it,
whatever comes behind them instead of that name. -/
theorem walk_through (keeps : Directory.KeepsDirectories what (disk.entriesAt names))
    (sheds : Directory.Sheds what) {reached pieces place : List String} {name : String}
    {target : Place} (led : disk.leads reached pieces = some place)
    (gets : disk.walk reached (disk.standing reached.reverse) (pieces ++ [name]) = .ok target)
    (rest : List String) :
    disk.walk reached (disk.standing reached.reverse) (pieces ++ rest) =
        disk.walk place (disk.standing place.reverse) rest ∧
      (disk.changing what names).walk reached ((disk.changing what names).standing reached.reverse)
          (pieces ++ rest) =
        (disk.changing what names).walk place ((disk.changing what names).standing place.reverse)
          rest := by
  induction pieces generalizing reached with
  | nil =>
    cases led
    exact ⟨rfl, rfl⟩
  | cons piece others ih =>
    cases stands : disk.standing reached.reverse with
    | file content changed =>
      rw [stands, List.cons_append, walk] at gets
      cases gets
    | directory changed entries =>
      obtain ⟨time, after, standsAfter⟩ := standing_changing keeps sheds stands
      rw [stands, List.cons_append, walk] at gets
      rw [standsAfter, List.cons_append, walk, walk]
      rw [leads] at led
      by_cases idle : Path.isIdle piece = true
      · rw [if_pos idle, ← stands] at gets
        rw [if_pos idle, if_pos idle, ← stands, ← standsAfter]
        rw [if_pos idle] at led
        exact ih led gets
      rw [if_neg idle] at gets led
      rw [if_neg idle, if_neg idle]
      by_cases up : (piece == "..") = true
      · rw [if_pos up] at gets led
        rw [if_pos up, if_pos up]
        exact ih led gets
      rw [if_neg up] at gets led
      rw [if_neg up, if_neg up]
      split at gets
      · cases gets
      rename_i short
      rw [if_neg short, if_neg short]
      have here := entriesAt_of_standing stands
      rw [here] at led
      split at led
      · rename_i own deeper held
        rw [← here] at held
        obtain ⟨ownAfter, deeperAfter, heldAfter⟩ := directory_changing keeps held
        have next : disk.standing (piece :: reached).reverse = .directory own deeper := by
          rw [List.reverse_cons]
          exact standing_of_there (node?_of_entry held)
        have nextAfter : (disk.changing what names).standing (piece :: reached).reverse =
            .directory ownAfter deeperAfter := by
          rw [List.reverse_cons]
          exact standing_of_there (node?_of_entry heldAfter)
        rw [here] at held
        rw [entriesAt_of_standing standsAfter] at heldAfter
        rw [held] at gets
        rw [held, heldAfter]
        dsimp only at gets ⊢
        rw [← next] at gets ⊢
        rw [← nextAfter]
        exact ih led gets
      · cases led

end Disk

namespace DirectoryStore
variable {store after : DirectoryStore} {key probe : String}

/-- Where the paths of entries lead when a file has been taken away: its own to where it is missing,
every other where it led before. -/
theorem locate_erased {place : List String} {content : Bytes} {changed : Millis}
    (stem : Store.isStem key = true) (probed : Store.isStem probe = true)
    (led : store.place? = some place)
    (held : (store.disk.entriesAt place.reverse).get? (fileName key) = some (.file content changed))
    (located : store.disk.locate (store.path key) =
      .ok (.found (place.reverse ++ [fileName key]) (.file content changed))) :
    (store.changing (·.erase (fileName key)) place).disk.locate (store.path probe) =
      if probe = key then .ok (.missing (place.reverse ++ [fileName key]) false)
      else store.disk.locate (store.path probe) := by
  have keeps : Directory.KeepsDirectories (·.erase (fileName key))
      (store.disk.entriesAt place.reverse) := by
    intro name time inner found
    rw [Table.get?_erase_of_ne _ _, found]
    rintro rfl
    rw [held] at found
    cases found
  obtain ⟨own, entries, there⟩ := Disk.there_of_entry held
  have thereAfter : (store.changing (·.erase (fileName key)) place).disk.node? place.reverse =
      some (.directory own (entries.erase (fileName key))) := Directory.at?_change _ there
  have gets := Disk.follow_of_locate located
  rw [follow_path store stem] at gets
  obtain ⟨before, after⟩ := Disk.walk_through keeps (Directory.sheds_erase _) led gets
    [fileName probe]
  have follows : store.disk.follow (store.path probe) = _ := (follow_path store probed).trans before
  have followsAfter :
      (store.changing (·.erase (fileName key)) place).disk.follow (store.path probe) = _ :=
    (follow_path (store.changing (·.erase (fileName key)) place) probed).trans after
  change _ = Disk.walk (store.changing (·.erase (fileName key)) place).disk place
    ((store.changing (·.erase (fileName key)) place).disk.standing place.reverse) _ at followsAfter
  rw [Disk.standing_of_there there, Disk.walk_last there (plain_fileName probed)] at follows
  rw [Disk.standing_of_there thereAfter, Disk.walk_last thereAfter (plain_fileName probed)]
    at followsAfter
  split
  · rename_i same
    subst same
    have permitted := Disk.permitted_of_locate located
    rw [Disk.locate_of_permit permitted, follows] at located
    rw [Disk.locate_of_permit permitted, followsAfter, Table.get?_erase_self]
    split at located
    · cases located
    · rw [if_neg ‹_›]
  · rename_i apart
    have others : (entries.erase (fileName key)).get? (fileName probe) =
        entries.get? (fileName probe) :=
      Table.get?_erase_of_ne _ fun same => apart (fileName_inj same)
    rw [Disk.locate, Disk.locate, followsAfter, others, follows]

/-- A deletion leads no other path elsewhere. -/
theorem locate_delete (deleted : store.delete key = .ok after) (probed : Store.isStem probe = true)
    (apart : probe ≠ key) :
    after.disk.locate (after.path probe) = store.disk.locate (store.path probe) := by
  obtain ⟨stem, ⟨rfl, -⟩ | ⟨place, content, changed, led, held, located, rfl⟩⟩ :=
    delete_cases deleted
  · rfl
  · have same := locate_erased stem probed led held located
    rw [if_neg apart] at same
    exact same

theorem root_delete (deleted : store.delete key = .ok after) : after.root = store.root := by
  obtain ⟨-, ⟨rfl, -⟩ | ⟨place, content, changed, -, -, -, rfl⟩⟩ := delete_cases deleted <;> rfl

/-- What has been deleted is not found. -/
theorem stat_deleted (deleted : store.delete key = .ok after) (node : Node) :
    after.disk.stat (after.path key) ≠ .ok node := by
  obtain ⟨stem, ⟨rfl, -, nothing⟩ | ⟨place, content, changed, led, held, located, rfl⟩⟩ :=
    delete_cases deleted
  · exact nothing node
  · have gone := locate_erased stem stem led held located
    rw [if_pos rfl] at gone
    change Disk.stat _ (store.path key) ≠ _
    rw [Disk.stat, gone]
    intro found
    cases found

/-- The calls about an entry answer alike in two stores, but for the stores that they leave. -/
structure SameAnswers (key : String) (one other : DirectoryStore) : Prop where
  get : one.get key = other.get key
  put (content : Bytes) :
    (one.put key content).map (fun _ => ()) = (other.put key content).map fun _ => ()
  delete : (one.delete key).map (fun _ => ()) = (other.delete key).map fun _ => ()
  modified : one.modified key = other.modified key
  size : one.size key = other.size key

/-- Every call about an entry is decided by where its path leads. -/
theorem sameAnswers_of_locate (root : after.root = store.root)
    (located : Store.isStem key = true →
      after.disk.locate (after.path key) = store.disk.locate (store.path key)) :
    SameAnswers key after store := by
  have path : after.path key = store.path key := by rw [path, path, root]
  by_cases stem : Store.isStem key = true
  · have located := located stem
    have stat : after.disk.stat (after.path key) = store.disk.stat (store.path key) := by
      rw [Disk.stat, located, Disk.stat]
    rw [path] at located stat
    have read : after.disk.read (store.path key) = store.disk.read (store.path key) := by
      rw [Disk.read, stat, Disk.read]
    refine ⟨?_, fun content => ?_, ?_, ?_, ?_⟩
    · unfold get entryPath
      rw [path]
      split
      · simp only [bind, Except.bind, read]
      · rfl
    · unfold DirectoryStore.put entryPath
      rw [path]
      split
      · simp only [bind, Except.bind, Disk.write, Disk.writeAt, located]
        cases store.disk.locate (store.path key) with
        | error fault => rfl
        | ok found =>
          cases found with
          | found names node => cases node <;> rfl
          | missing names mustBeDirectory => cases mustBeDirectory <;> rfl
      · rfl
    · unfold delete listedPath
      rw [path, if_pos stem]
      simp only [bind, Except.bind, Disk.removeFile, located]
      cases store.disk.locate (store.path key) with
      | error fault => cases fault <;> rfl
      | ok found =>
        cases found with
        | found names node => cases node <;> rfl
        | missing names mustBeDirectory => rfl
    · unfold modified listedPath
      rw [path, if_pos stem]
      simp only [bind, Except.bind, stat]
    · unfold size listedPath
      rw [path, if_pos stem]
      simp only [bind, Except.bind, stat]
  · have unlisted : ∀ asked : DirectoryStore, asked.listedPath key = .error (.invalidKey key) :=
      fun _ => if_neg stem
    have unread : ∀ asked : DirectoryStore, asked.entryPath key = .error (.invalidKey key) :=
      fun _ => if_neg fun valid => stem (Store.isStem_of_isKey valid)
    refine ⟨?_, fun content => ?_, ?_, ?_, ?_⟩
    · rw [get, get, unread, unread]
      rfl
    · rw [DirectoryStore.put, DirectoryStore.put, unread, unread]
      rfl
    · rw [delete, delete, unlisted, unlisted]
      rfl
    · rw [modified, modified, unlisted, unlisted]
      rfl
    · rw [size, size, unlisted, unlisted]
      rfl

theorem sameEntry_of_locate (root : after.root = store.root)
    (held : LawfulStore.held after key = LawfulStore.held store key)
    (located : Store.isStem key = true →
      after.disk.locate (after.path key) = store.disk.locate (store.path key)) :
    SameEntry key after store := by
  have same := sameAnswers_of_locate root located
  have succeeds (answer : Except StoreError DirectoryStore) :
      (answer.map fun _ => ()).isOk = answer.isOk := by
    cases answer <;> rfl
  refine ⟨held, same.get, same.modified, same.size, ?_⟩
  change (after.delete key).isOk = (store.delete key).isOk
  rw [← succeeds, same.delete, succeeds]

/-- A file that is deleted takes no other with it. -/
instance : FramedStore DirectoryStore where
  delete_others {store after key probe} deleted apart := by
    have held := LawfulStore.delete_held deleted probe
    rw [if_neg apart] at held
    exact sameEntry_of_locate (root_delete deleted) held fun probed =>
      locate_delete deleted probed apart
  delete_unstamped {store after key} deleted stamp told := by
    have stem := (delete_cases deleted).1
    change after.modified key = _ at told
    unfold modified listedPath at told
    rw [if_pos stem] at told
    change (·.map Node.changed) <$> orMissing _ (after.disk.stat (after.path key)) = _ at told
    have gone := stat_deleted deleted
    cases found : after.disk.stat (after.path key) with
    | ok node => exact gone node found
    | error fault =>
      rw [found] at told
      cases fault <;> cases told

end DirectoryStore
end Overlay
