import Overlay.Proofs.DirectoryContract
import Overlay.Proofs.Utf8

/-! What a store in a directory answers while its directory stands. The contract of stores says what
a call that succeeds has done; here the directory exists, and then each call is decided by the
entries that lie in it. The names that are listed are those of files with the ending, each cut
before its last dot, so a name is listed for one file and that file is the one it stands for. -/
namespace Overlay

theorem length_octets_append (first second : String) :
    (octets (first ++ second)).length = (octets first).length + (octets second).length := by
  simp [octets, Text.Utf8.encode_append]

/-- Joining two paths takes one slash at most. -/
theorem length_octets_path_le (base name : String) :
    (octets (Path.append base name)).length ≤ (octets base).length + 1 + (octets name).length := by
  unfold Path.append
  split
  · omega
  · split
    · rw [length_octets_append]
      omega
    · have slash : (octets "/").length = 1 := by decide
      have joined : (octets (base ++ "/" ++ name)).length =
          (octets base).length + 1 + (octets name).length := by
        rw [length_octets_append, length_octets_append, slash]
      exact Nat.le_of_eq joined

namespace DirectoryStore

/-! ### Names of files and of entries -/

/-- What comes before the last dot of a name is the key that the file is named for. -/
theorem splitExtension_eq_iff {name key : String} :
    Path.splitExtension name = (key, some Store.entryExtension) ↔
      name = fileName key ∧ key ≠ "" := by
  have ending : '.' ∉ Store.entryExtension.toList := by decide
  have long : (fileName key).length ≠ "..".length := by
    have dot : ".".length = 1 := by decide
    have dots : "..".length = 2 := by decide
    have letters : Store.entryExtension.length = 5 := by decide
    rw [fileName, String.length_append, String.length_append]
    omega
  rw [Path.splitExtension_eq_some_iff]
  constructor
  · rintro ⟨named, something, -, -⟩
    exact ⟨named, something⟩
  · rintro ⟨rfl, something⟩
    exact ⟨rfl, something, ending, fun same => long (congrArg String.length same)⟩

/-- A file stands for the key that it is named for, unless nothing comes before the ending. -/
theorem keyOf?_eq_some_iff {name key : String} :
    keyOf? name = some key ↔ name = fileName key ∧ key ≠ "" := by
  rw [← splitExtension_eq_iff]
  unfold keyOf?
  constructor
  · intro answer
    split at answer
    · split at answer
      · rename_i split same
        cases answer
        rw [split, beq_iff_eq.mp same]
      · cases answer
    · cases answer
  · intro split
    rw [split]
    simp

/-! ### A directory that stands -/

/-- The root of a store leads to a directory in which these entries lie. It is followed from a
directory that exists: the working directory may have been removed. -/
structure Stands (store : DirectoryStore) (place : List String) (entries : Directory) : Prop where
  begins : (store.disk.node? store.start.reverse).isSome = true
  located : ∃ changed,
    store.disk.locate store.root = .ok (.found place (.directory changed entries))

/-- The same, said of what comes before the name of a file. -/
structure Founded (store : DirectoryStore) (place : List String) (entries : Directory) : Prop where
  permitted : Disk.permit store.root = .ok ()
  begins : ∃ changed inner, store.disk.node? store.start.reverse = some (.directory changed inner)
  led : store.place? = some place.reverse
  short : ∀ piece ∈ Path.piecesBefore store.root, (octets piece).length ≤ Disk.longestName
  there : ∃ changed, store.disk.node? place = some (.directory changed entries)

variable {store : DirectoryStore} {place : List String} {entries : Directory} {key : String}

theorem follow_root (store : DirectoryStore) :
    store.disk.follow store.root =
      store.disk.walk store.start (store.disk.standing store.start.reverse)
        (Path.pieces store.root) := by
  unfold Disk.follow start
  rw [List.reverse_reverse]

/-- What the root names is where the paths of entries go through. -/
theorem place?_of_locate {changed : Millis}
    (located : store.disk.locate store.root = .ok (.found place (.directory changed entries))) :
    store.place? = some place.reverse ∧ store.disk.standing place = .directory changed entries ∧
      ∀ piece ∈ Path.piecesBefore store.root, (octets piece).length ≤ Disk.longestName := by
  have followed := Disk.follow_of_locate located
  rw [follow_root] at followed
  obtain ⟨idle, pieces, idles⟩ := Path.pieces_eq_before
    (Disk.permit_eq_ok_iff.mp (Disk.permitted_of_locate located)).2.1
  obtain ⟨led, stands, short⟩ := Disk.leads_of_walk followed
  rw [pieces] at led short
  rw [Disk.leads_append_idle idles] at led
  exact ⟨led, stands, fun piece member => short piece (List.mem_append_left _ member)⟩

theorem Stands.founded (stands : store.Stands place entries) : store.Founded place entries := by
  obtain ⟨begins, changed, located⟩ := stands
  obtain ⟨led, standing, short⟩ := place?_of_locate located
  obtain ⟨node, there⟩ := Option.isSome_iff_exists.mp begins
  cases node with
  | file content time =>
    have followed := Disk.follow_of_locate located
    obtain ⟨piece, rest, more⟩ := List.exists_cons_of_ne_nil (Path.pieces_ne_nil store.root)
    rw [follow_root, Disk.standing_of_there there, more, Disk.walk] at followed
    cases followed
  | directory time inner =>
    obtain ⟨own, within, reached, -⟩ := Disk.walk_of_leads led short there
    rw [List.reverse_reverse] at reached
    rw [Disk.standing_of_there reached] at standing
    rw [standing] at reached
    exact ⟨Disk.permitted_of_locate located, ⟨time, inner, there⟩, led, short, ⟨changed, reached⟩⟩

theorem Founded.stands (founded : store.Founded place entries) : store.Stands place entries := by
  obtain ⟨permitted, ⟨time, inner, begins⟩, led, short, changed, there⟩ := founded
  obtain ⟨idle, pieces, idles⟩ :=
    Path.pieces_eq_before (Disk.permit_eq_ok_iff.mp permitted).2.1
  refine ⟨by rw [begins]; rfl, changed, ?_⟩
  obtain ⟨own, within, reached, goesOn⟩ := Disk.walk_of_leads led short begins
  rw [List.reverse_reverse, there] at reached
  cases reached
  rw [Disk.locate_of_permit permitted, follow_root, Disk.standing_of_there begins, pieces, goesOn,
    Disk.walk_idle idles, List.reverse_reverse]

/-- A directory that stands already is opened as it is. -/
theorem Stands.openAt {root : String} {disk : Disk}
    (stands : (DirectoryStore.mk root disk).Stands place entries)
    (named : Path.withoutEnd root = root) :
    DirectoryStore.openAt disk root = (.ok ⟨root, disk⟩, disk) := by
  have permitted : Disk.permit root = .ok () := stands.founded.permitted
  obtain ⟨-, changed, located⟩ := stands
  have located : disk.locate root = .ok (.found place (.directory changed entries)) := located
  have made : disk.ensureDirectory root = .ok disk := by
    have taken : disk.makeDirectory root = .error .exists := by
      unfold Disk.makeDirectory
      rw [permitted, named, Disk.follow_of_locate located]
      rfl
    have there : disk.isDirectory root = true := by
      rw [Disk.isDirectory, Disk.stat, located]
      rfl
    rw [Disk.ensureDirectory, taken]
    exact if_pos there
  have written : ¬ (root == "") = true := by
    simpa using (Disk.permit_eq_ok_iff.mp permitted).2.1
  unfold DirectoryStore.openAt Disk.makeDirectories
  rw [Disk.makeDirectoriesWithin, if_neg written, made]
  rfl

/-- The root leads to one directory. -/
theorem Stands.entries_eq {elsewhere : List String} {others : Directory}
    (stands : store.Stands place entries) (also : store.Stands elsewhere others) :
    entries = others := by
  obtain ⟨-, changed, located⟩ := stands
  obtain ⟨-, time, locatedAlso⟩ := also
  rw [located] at locatedAlso
  cases locatedAlso
  rfl

/-- The directory stands after a change that leaves the directories in it alone. -/
theorem Founded.changing {what : Directory → Directory} (founded : store.Founded place entries)
    (keeps : Directory.KeepsDirectories what entries) :
    (store.changing what place.reverse).Founded place (what entries) := by
  obtain ⟨permitted, ⟨time, inner, begins⟩, led, short, changed, there⟩ := founded
  have keepsThere : Directory.KeepsDirectories what
      (store.disk.entriesAt place.reverse.reverse) := by
    rw [List.reverse_reverse, Disk.entriesAt_of_there there]
    exact keeps
  refine ⟨permitted, ?_, Disk.leads_changing keepsThere led, short, changed, ?_⟩
  · obtain ⟨after, still⟩ := Disk.there_changing keepsThere begins
    exact ⟨time, after, still⟩
  · change (Node.directory 0 (store.disk.root.change what place.reverse.reverse)).at? place = _
    rw [List.reverse_reverse]
    exact Directory.at?_change what there

/-! ### The calls -/

/-- The file of a name can be reached in a directory: the name may be listed, and neither the name
of its file nor its path is too long. -/
structure Admits (store : DirectoryStore) (key : String) : Prop where
  stem : Store.isStem key = true
  short : (octets (fileName key)).length ≤ Disk.longestName
  fits : (octets (store.path key)).length ≤ Disk.longestPath

theorem Admits.nulless (admits : store.Admits key) : '\x00' ∉ (fileName key).toList := by
  have stem := admits.stem
  simp only [Store.isStem, Bool.and_eq_true, Bool.not_eq_true', List.contains_eq_mem,
    decide_eq_false_iff_not] at stem
  have ending : '\x00' ∉ ".".toList ++ Store.entryExtension.toList := by decide
  rw [fileName, String.toList_append, String.toList_append, List.append_assoc, List.mem_append]
  rintro (inside | after)
  · exact stem.1.2 inside
  · exact ending after

/-- The path of an entry leads to its file, or to the place where the file is missing. -/
theorem Founded.locate (founded : store.Founded place entries) (admits : store.Admits key) :
    store.disk.locate (store.path key) =
      match entries.get? (fileName key) with
      | some node => .ok (.found (place ++ [fileName key]) node)
      | none => .ok (.missing (place ++ [fileName key]) false) := by
  obtain ⟨permitted, ⟨time, inner, begins⟩, led, short, changed, there⟩ := founded
  have clean : '\x00' ∉ (store.path key).toList := by
    intro member
    rcases Path.mem_append member with inRoot | slash | inName
    · exact (Disk.permit_eq_ok_iff.mp permitted).1 inRoot
    · exact absurd slash (by decide)
    · exact admits.nulless inName
  have permits : Disk.permit (store.path key) = .ok () :=
    Disk.permit_eq_ok_iff.mpr ⟨clean, store.path_ne_empty admits.stem, admits.fits⟩
  obtain ⟨own, within, reached, goesOn⟩ := Disk.walk_of_leads led short begins
  rw [List.reverse_reverse, there] at reached
  cases reached
  rw [Disk.locate_of_permit permits]
  have stays : store.disk.node? place.reverse.reverse = some (.directory changed entries) := by
    rw [List.reverse_reverse, there]
  have arrives := Disk.walk_last stays (plain_fileName admits.stem)
  rw [if_neg (Nat.not_lt.mpr admits.short), List.reverse_reverse] at arrives
  rw [follow_path store admits.stem, Disk.standing_of_there begins, goesOn]
  exact arrives

theorem Founded.stat (founded : store.Founded place entries) (admits : store.Admits key) :
    store.disk.stat (store.path key) =
      match entries.get? (fileName key) with
      | some node => .ok node
      | none => .error .notFound := by
  unfold Disk.stat
  rw [founded.locate admits]
  cases entries.get? (fileName key) with
  | none => rfl
  | some node => rfl

/-- A missing file is no fault. -/
theorem Founded.missing (founded : store.Founded place entries) (admits : store.Admits key) :
    orMissing (store.path key) (store.disk.stat (store.path key)) =
      .ok (entries.get? (fileName key)) := by
  rw [founded.stat admits]
  cases entries.get? (fileName key) with
  | none => rfl
  | some node => rfl

/-- What is measured is what lies there. -/
theorem Founded.size (founded : store.Founded place entries) (admits : store.Admits key) :
    store.size key = .ok ((entries.get? (fileName key)).map Node.size) := by
  unfold DirectoryStore.size listedPath
  rw [if_pos admits.stem]
  change _ <$> orMissing _ (store.disk.stat (store.path key)) = _
  rw [founded.missing admits]
  rfl

theorem Founded.modified (founded : store.Founded place entries) (admits : store.Admits key) :
    store.modified key = .ok ((entries.get? (fileName key)).map Node.changed) := by
  unfold DirectoryStore.modified listedPath
  rw [if_pos admits.stem]
  change _ <$> orMissing _ (store.disk.stat (store.path key)) = _
  rw [founded.missing admits]
  rfl

/-- What lies in a file, if there is one. -/
def contentOf : Node → Option Bytes
  | .file content _ => some content
  | .directory .. => none

/-- No directory has the name of the file. -/
def Free (entries : Directory) (key : String) : Prop :=
  ∀ time inner, entries.get? (fileName key) ≠ some (.directory time inner)

theorem Founded.get (founded : store.Founded place entries) (admits : store.Admits key)
    (valid : Store.isKey key = true) (free : Free entries key) :
    store.get key = .ok ((entries.get? (fileName key)).bind contentOf) := by
  unfold DirectoryStore.get entryPath
  rw [if_pos valid]
  change orMissing _ (store.disk.read (store.path key)) = _
  unfold Disk.read
  rw [founded.stat admits]
  cases held : entries.get? (fileName key) with
  | none => rfl
  | some node =>
    cases node with
    | file content changed => rfl
    | directory time inner => exact absurd held (free time inner)

theorem keepsDirectories_of_free {what : Directory → Directory} (free : Free entries key)
    (others : ∀ name, name ≠ fileName key → (what entries).get? name = entries.get? name) :
    Directory.KeepsDirectories what entries := by
  intro name changed inner held
  rw [others name]
  · exact held
  · rintro rfl
    exact free changed inner held

/-- Putting writes the file of the key, and the directory stands with it. -/
theorem Founded.put (founded : store.Founded place entries) (admits : store.Admits key)
    (valid : Store.isKey key = true) (free : Free entries key) (content : Bytes) :
    let what : Directory → Directory :=
      (·.insert (fileName key) (.file content (Disk.stamp store.disk.present)))
    store.put key content = .ok (store.changing what place.reverse) ∧
      (store.changing what place.reverse).Founded place (what entries) := by
  refine ⟨?_, founded.changing (keepsDirectories_of_free free fun name apart =>
    Table.get?_insert_of_ne _ _ apart)⟩
  unfold DirectoryStore.put entryPath
  simp only [valid, if_true, bind, Except.bind, Disk.write, Disk.writeAt, founded.locate admits]
  cases held : entries.get? (fileName key) with
  | none => simp only [Disk.put_eq_changing, DirectoryStore.changing, List.reverse_reverse]
  | some node =>
    cases node with
    | file before time =>
      simp only [Disk.put_eq_changing, DirectoryStore.changing, List.reverse_reverse]
    | directory time inner => exact absurd held (free time inner)

/-- Deleting takes the file away if there is one, and the directory stands without it. -/
theorem Founded.delete (founded : store.Founded place entries) (admits : store.Admits key)
    (free : Free entries key) :
    ∃ after, store.delete key = .ok after ∧ after.root = store.root ∧
      after.Founded place (entries.erase (fileName key)) := by
  unfold DirectoryStore.delete listedPath
  simp only [admits.stem, if_true, bind, Except.bind, Disk.removeFile, founded.locate admits]
  cases held : entries.get? (fileName key) with
  | none =>
    refine ⟨store, rfl, rfl, ?_⟩
    rw [Table.erase_of_absent held]
    exact founded
  | some node =>
    cases node with
    | file before time =>
      refine ⟨store.changing (·.erase (fileName key)) place.reverse, ?_, rfl,
        founded.changing (keepsDirectories_of_free free fun name apart =>
          Table.get?_erase_of_ne _ apart)⟩
      simp only [Disk.remove_eq_changing, DirectoryStore.changing, List.reverse_reverse]
    | directory time inner => exact absurd held (free time inner)

/-- The keys that are listed ascend, and they are those that entries are named for. -/
theorem keys_of_locate {changed : Millis}
    (located : store.disk.locate store.root = .ok (.found place (.directory changed entries))) :
    ∃ keys, store.keys = .ok keys ∧ keys.Pairwise (· < ·) ∧
      ∀ key, key ∈ keys ↔ key ≠ "" ∧ fileName key ∈ entries.keys := by
  refine ⟨(Table.ofList ((entries.keys.filterMap keyOf?).map fun key => (key, ()))).keys, ?_,
    (Table.ascending_ofList _).keys, fun key => ?_⟩
  · unfold DirectoryStore.keys Disk.list
    rw [located]
    rfl
  · rw [Table.mem_keys_ofList, List.map_map]
    change key ∈ (entries.keys.filterMap keyOf?).map id ↔ _
    rw [List.map_id, List.mem_filterMap]
    constructor
    · rintro ⟨name, listed, named⟩
      obtain ⟨rfl, something⟩ := keyOf?_eq_some_iff.mp named
      exact ⟨something, listed⟩
    · rintro ⟨something, listed⟩
      exact ⟨fileName key, listed, keyOf?_eq_some_iff.mpr ⟨rfl, something⟩⟩

theorem Stands.keys (stands : store.Stands place entries) :
    ∃ keys, store.keys = .ok keys ∧ keys.Pairwise (· < ·) ∧
      ∀ key, key ∈ keys ↔ key ≠ "" ∧ fileName key ∈ entries.keys := by
  obtain ⟨-, changed, located⟩ := stands
  exact keys_of_locate located

/-- A store whose path goes through the directory beside its own, and ends with a slash. -/
def beside (entries : Directory) (present : Millis) : DirectoryStore where
  root := "a/../c/"
  disk := { root := ⟨[("a", .directory 0 ∅), ("c", .directory 0 entries)]⟩, present }

theorem beside_stands (entries : Directory) (present : Millis) :
    (beside entries present).Stands ["c"] entries := by
  have relative : Path.isAbsolute "a/../c/" = false := by decide
  have pieces : Path.pieces "a/../c/" = ["a", "..", "c", ""] := by decide +kernel
  have permitted : Disk.permit "a/../c/" = .ok () :=
    Disk.permit_eq_ok_iff.mpr ⟨by decide, by decide, by decide⟩
  have short : ∀ name ∈ ["a", "c"], ¬ Disk.longestName < (octets name).length := by decide
  refine ⟨?_, 0, ?_⟩
  · rw [start, beside, relative]
    rfl
  · change (beside entries present).disk.locate "a/../c/" = _
    rw [Disk.locate_of_permit permitted, Disk.follow, pieces, relative]
    simp [beside, Disk.walk, Disk.standing, Disk.node?, Node.at?, Table.get?, Table.find,
      Path.isIdle, short]

end DirectoryStore
end Overlay
