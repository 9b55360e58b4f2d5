import Overlay.Manager
import Overlay.Proofs.DiskWalks
import Overlay.Proofs.Lines
import Overlay.Proofs.Utf8

/-! A tree in memory and the same files on disk. The two kinds of reference move by different means:
on disk the text of an absolute path is folded and the operating system is asked what exists, in
memory the text of a key is cut and the keys are searched. They come to the same files all the same.
The invariant of a walk is that both references stand under the same names, and that these lead to a
file of the tree or to a directory that one lies in. -/
namespace Overlay

/-! ### The same files twice -/

/-- Names that lead to a file of a tree, or to a directory that one lies in. -/
def MemoryTree.Holds (tree : MemoryTree) (names : List String) : Prop :=
  ∃ key ∈ tree.files.keys, names <+: Path.pieces key

instance (tree : MemoryTree) (names : List String) : Decidable (tree.Holds names) :=
  inferInstanceAs (Decidable (∃ key ∈ tree.files.keys, names <+: Path.pieces key))

/-- The directory that some names lead to holds the files of a tree and nothing else. That no file
of the tree is a directory of another follows, because no disk could hold both. -/
structure LaidOut (tree : MemoryTree) (disk : Disk) (base : List String) : Prop where
  legal : ∀ key ∈ tree.files.keys, ∀ name ∈ Path.pieces key, Disk.Legal name
  baseLegal : ∀ name ∈ base, Disk.Legal name
  short : ∀ key ∈ tree.files.keys,
    (octets (Path.absolute (base ++ Path.pieces key))).length ≤ Disk.longestPath
  file (names : List String) (content : Bytes) :
    (∃ changed, disk.node? (base ++ names) = some (.file content changed)) ↔
      ∃ key, tree.files.get? key = some content ∧ Path.pieces key = names
  directory (names : List String) :
    (∃ changed entries, disk.node? (base ++ names) = some (.directory changed entries)) ↔
      names = [] ∨ ∃ key ∈ tree.files.keys, ∃ name rest, Path.pieces key = names ++ name :: rest

/-- Segments that never climb above the top from a place so far below it. -/
def StaysWithin : Nat → List String → Prop
  | _, [] => True
  | depth, segment :: rest =>
    if segment = ".." then 0 < depth ∧ StaysWithin (depth - 1) rest
    else StaysWithin (depth + 1) rest

/-! ### What a tree holds -/

namespace MemoryTree

variable {tree : MemoryTree} {names : List String}

theorem holds_iff (spelled : Path.Spelled names) (something : names ≠ []) :
    tree.Holds names ↔ Path.join names ∈ tree.files.keys ∨
      ∃ key ∈ tree.files.keys, (Path.join names ++ "/").toList <+: key.toList := by
  have same : Path.pieces (Path.join names) = names :=
    Path.pieces_join spelled.slashless something
  constructor
  · rintro ⟨key, member, rest, shape⟩
    have whole := Path.join_pieces key
    rw [← shape] at whole
    cases rest with
    | nil =>
      rw [List.append_nil] at whole
      rw [whole]
      exact .inl member
    | cons next rest =>
      rw [Path.join_append something (List.cons_ne_nil _ _)] at whole
      refine .inr ⟨key, member, (Path.join (next :: rest)).toList, ?_⟩
      rw [← whole, ← String.toList_append]
  · rintro (member | ⟨key, member, rest, shape⟩)
    · exact ⟨_, member, [], by rw [List.append_nil, same]⟩
    · refine ⟨key, member, (Text.splitAll Path.isSlash rest).map String.ofList, ?_⟩
      have letters : key.toList = (Path.join names).toList ++ '/' :: rest := by
        rw [← shape, String.toList_append, List.append_assoc]
        rfl
      rw [Path.pieces_of_slash letters]
      change _ = Path.pieces (Path.join names) ++ _
      rw [same]

/-- What a reference in memory finds to exist is what the tree holds. -/
theorem exists_iff (spelled : Path.Spelled names) (something : names ≠ []) :
    (tree.files.contains (Path.join names) || tree.isDirectory (Path.join names)) = true ↔
      tree.Holds names := by
  have inside : (Path.join names == "") = false := by
    simpa [spelled.join_eq_empty] using something
  rw [holds_iff spelled something, isDirectory, inside, Bool.false_or, Bool.or_eq_true,
    List.any_eq_true, Table.mem_keys, Table.contains]
  simp only [Text.after?_isSome_iff]

end MemoryTree

/-! ### What lies on disk -/

theorem Disk.exists?_iff {disk : Disk} {path : String} :
    disk.exists? path = true ↔ ∃ node, disk.stat path = .ok node := by
  unfold exists?
  cases disk.stat path <;> simp

theorem Disk.read_eq_ok_iff {disk : Disk} {path : String} {content : Bytes} :
    disk.read path = .ok content ↔ ∃ changed, disk.stat path = .ok (.file content changed) := by
  unfold read
  cases disk.stat path with
  | error fault => simp [bind, Except.bind]
  | ok node => cases node <;> simp [bind, Except.bind]

/-- A path is no shorter than that of a directory on its way. -/
theorem octets_absolute_le (first second : List String) :
    (octets (Path.absolute first)).length ≤ (octets (Path.absolute (first ++ second))).length := by
  have longer (text more : String) : (octets text).length ≤ (octets (text ++ more)).length := by
    simp [octets, Text.Utf8.encode_append]
  cases second with
  | nil => simp
  | cons next rest =>
    cases first with
    | nil => exact longer "/" _
    | cons name names =>
      rw [Path.absolute, Path.absolute, Path.join_append (List.cons_ne_nil _ _)
        (List.cons_ne_nil _ _), ← String.append_assoc, ← String.append_assoc, String.append_assoc]
      exact longer _ _

namespace LaidOut

variable {tree : MemoryTree} {disk : Disk} {base names : List String}

theorem legalBelow (laid : LaidOut tree disk base) (holds : tree.Holds names) :
    ∀ name ∈ names, Disk.Legal name := by
  obtain ⟨key, member, start⟩ := holds
  exact fun name among => laid.legal key member name (start.subset among)

theorem legalWhole (laid : LaidOut tree disk base) (holds : tree.Holds names) :
    ∀ name ∈ base ++ names, Disk.Legal name :=
  List.forall_mem_append.mpr ⟨laid.baseLegal, laid.legalBelow holds⟩

theorem shortWhole (laid : LaidOut tree disk base) (holds : tree.Holds names) :
    (octets (Path.absolute (base ++ names))).length ≤ Disk.longestPath := by
  obtain ⟨key, member, rest, shape⟩ := holds
  have whole := laid.short key member
  rw [← shape, ← List.append_assoc] at whole
  exact Nat.le_trans (octets_absolute_le _ rest) whole

/-- Something lies under names below the top where the tree holds them. -/
theorem node?_isSome_iff (laid : LaidOut tree disk base) (something : names ≠ []) :
    (∃ node, disk.node? (base ++ names) = some node) ↔ tree.Holds names := by
  constructor
  · rintro ⟨node, there⟩
    cases node with
    | file content changed =>
      obtain ⟨key, held, rfl⟩ := (laid.file names content).mp ⟨changed, there⟩
      exact ⟨key, (Table.mem_keys _ _).mpr (by rw [held]; rfl), List.prefix_rfl⟩
    | directory changed entries =>
      rcases (laid.directory names).mp ⟨changed, entries, there⟩ with top | inside
      · exact absurd top something
      · obtain ⟨key, member, name, rest, shape⟩ := inside
        exact ⟨key, member, name :: rest, shape.symm⟩
  · rintro ⟨key, member, rest, shape⟩
    cases rest with
    | nil =>
      obtain ⟨content, held⟩ := Option.isSome_iff_exists.mp ((Table.mem_keys _ _).mp member)
      rw [List.append_nil] at shape
      obtain ⟨changed, there⟩ := (laid.file names content).mpr ⟨key, held, shape.symm⟩
      exact ⟨_, there⟩
    | cons next rest =>
      obtain ⟨changed, entries, there⟩ :=
        (laid.directory names).mpr (.inr ⟨key, member, next, rest, shape.symm⟩)
      exact ⟨_, there⟩

/-- What a reference on disk finds to exist is what the tree holds. -/
theorem exists_iff (laid : LaidOut tree disk base) (plain : ∀ name ∈ names, Path.Plain name)
    (something : names ≠ []) :
    disk.exists? (Path.absolute (base ++ names)) = true ↔ tree.Holds names := by
  have plainWhole : ∀ name ∈ base ++ names, Path.Plain name :=
    List.forall_mem_append.mpr ⟨fun name member => (laid.baseLegal name member).toPlain, plain⟩
  rw [Disk.exists?_iff, ← laid.node?_isSome_iff something]
  constructor
  · rintro ⟨node, found⟩
    exact ⟨node, Disk.node?_of_stat plainWhole found⟩
  · rintro ⟨node, there⟩
    have holds := (laid.node?_isSome_iff something).mp ⟨node, there⟩
    exact ⟨node, Disk.stat_of_node? (laid.legalWhole holds) (laid.shortWhole holds) there⟩

/-- A file is read from disk where the tree has it. -/
theorem read_eq_ok_iff (laid : LaidOut tree disk base) (holds : tree.Holds names)
    {content : Bytes} : disk.read (Path.absolute (base ++ names)) = .ok content ↔
      tree.files.get? (Path.join names) = some content := by
  have legal := laid.legalWhole holds
  rw [Disk.read_eq_ok_iff]
  constructor
  · rintro ⟨changed, found⟩
    have there := Disk.node?_of_stat (fun name member => (legal name member).toPlain) found
    obtain ⟨key, held, rfl⟩ := (laid.file names content).mp ⟨changed, there⟩
    rwa [Path.join_pieces]
  · intro held
    have member : Path.join names ∈ tree.files.keys :=
      (Table.mem_keys _ _).mpr (by rw [held]; rfl)
    have something : names ≠ [] := by
      rintro rfl
      exact (laid.legal "" member "" (by decide)).nonempty rfl
    have same := Path.pieces_join
      (fun name among => (laid.legalBelow holds name among).slashless) something
    obtain ⟨changed, there⟩ := (laid.file names content).mpr ⟨_, held, same⟩
    exact ⟨changed, Disk.stat_of_node? legal (laid.shortWhole holds) there⟩

end LaidOut

/-! ### A step and a walk -/

namespace Reference

/-- What stands on disk under names below a directory. -/
def onDiskBelow (base names : List String) : Reference :=
  .onDisk (Path.absolute (base ++ names))

/-- What stands in a tree under names below its top. -/
def inMemoryBelow (tree : MemoryTree) (names : List String) : Reference :=
  .inMemory tree (Path.join names)

/-- Where one segment takes two references that stand under the same names: under the same names
again, which lead somewhere in the tree, or both nowhere. -/
inductive Steps (tree : MemoryTree) (base names : List String) (segment : String) :
    Option Reference → Option Reference → Prop where
  | up (climbs : segment = "..") :
    Steps tree base names segment (some (onDiskBelow base names.dropLast))
      (some (inMemoryBelow tree names.dropLast))
  | down (descends : segment ≠ "..") (holds : tree.Holds (names ++ [segment])) :
    Steps tree base names segment (some (onDiskBelow base (names ++ [segment])))
      (some (inMemoryBelow tree (names ++ [segment])))
  | nowhere : Steps tree base names segment none none

/-- Where a walk takes them. -/
inductive Arrives (tree : MemoryTree) (base : List String) :
    Option Reference → Option Reference → Prop where
  | there {names : List String} (holds : tree.Holds names) :
    Arrives tree base (some (onDiskBelow base names)) (some (inMemoryBelow tree names))
  | nowhere : Arrives tree base none none

variable {tree : MemoryTree} {disk : Disk} {base names : List String}

theorem plain_of_mem_segments {relative segment : String} (member : segment ∈ segments relative)
    (descends : segment ≠ "..") : Path.Plain segment := by
  obtain ⟨among, said⟩ := List.mem_filter.mp member
  obtain ⟨piece, split, rfl⟩ := List.mem_map.mp among
  have clean := Text.mem_splitAll split
  have speaks : String.ofList piece ≠ "" ∧ String.ofList piece ≠ "." := by
    simpa [Path.isIdle] using said
  refine ⟨speaks.1, speaks.2, descends, ?_⟩
  intro c inside
  rw [String.toList_ofList] at inside
  exact (Bool.or_eq_false_iff.mp (clean c inside)).1

theorem parent?_onDisk {path : String} (something : names ≠ [])
    (leads : Path.anchor disk.workingDirectory path = base ++ names) :
    (onDisk path).parent? disk = some (onDiskBelow base names.dropLast) := by
  rw [parent?, leads]
  split
  · rename_i nothing
    exact absurd (List.append_eq_nil_iff.mp nothing).2 something
  · rw [List.dropLast_append_of_ne_nil something]
    rfl

theorem parent?_inMemory (spelled : Path.Spelled names) (something : names ≠ []) :
    (inMemoryBelow tree names).parent? disk = some (inMemoryBelow tree names.dropLast) := by
  have inside : ¬ (Path.join names == "") = true := by
    simpa [spelled.join_eq_empty] using something
  have same := Path.pieces_join spelled.slashless something
  rw [inMemoryBelow, parent?, if_neg inside, backwards, same]
  split
  · rename_i last rest shape
    have turned : names = rest.reverse ++ [last] := by
      rw [← List.reverse_reverse names, shape, List.reverse_cons]
    rw [turned, List.dropLast_concat]
    rfl
  · rename_i nothing
    exact absurd (List.reverse_eq_nil_iff.mp nothing) something

/-- In memory an entry is found under names that the tree holds. -/
theorem child?_inMemory (spelled : Path.Spelled names) {segment : String}
    (plain : Path.Plain segment) : (inMemoryBelow tree names).child? disk segment =
      if tree.Holds (names ++ [segment]) then some (inMemoryBelow tree (names ++ [segment]))
      else none := by
  have candidate : (if Path.join names == "" then segment else Path.join names ++ "/" ++ segment) =
      Path.join (names ++ [segment]) := by
    cases names with
    | nil => exact (Path.join_singleton segment).symm
    | cons first rest =>
      rw [if_neg (by simp [spelled.join_eq_empty]),
        Path.join_append (List.cons_ne_nil _ _) (List.cons_ne_nil _ _), Path.join_singleton]
  have something : names ++ [segment] ≠ [] := by simp
  rw [inMemoryBelow, child?, candidate]
  simp only [MemoryTree.exists_iff (spelled.concat plain) something, inMemoryBelow]

theorem child?_steps (laid : LaidOut tree disk base) (holds : tree.Holds names) {segment : String}
    (plain : Path.Plain segment) :
    Steps tree base names segment ((onDiskBelow base names).child? disk segment)
      ((inMemoryBelow tree names).child? disk segment) := by
  have plainWhole : ∀ name ∈ base ++ names, Path.Plain name :=
    fun name member => (laid.legalWhole holds name member).toPlain
  have plainBelow : ∀ name ∈ names, Path.Plain name :=
    fun name member => plainWhole name (List.mem_append_right _ member)
  have plainNext : ∀ name ∈ names ++ [segment], Path.Plain name :=
    List.forall_mem_append.mpr ⟨plainBelow, by simpa using plain⟩
  have found := laid.exists_iff plainNext (by simp)
  rw [child?_inMemory (.of_plain plainBelow) plain, onDiskBelow, child?,
    Path.append_absolute plainWhole plain, List.append_assoc]
  by_cases held : tree.Holds (names ++ [segment])
  · rw [if_pos (found.mpr held), if_pos held]
    exact .down plain.up held
  · rw [if_neg (held ∘ found.mp), if_neg held]
    exact .nowhere

/-- One segment takes two references that stand under the same names to the same names, unless it
climbs above the top. -/
theorem follow?_steps (laid : LaidOut tree disk base) (holds : tree.Holds names) {segment : String}
    (plain : segment ≠ ".." → Path.Plain segment) (below : segment = ".." → names ≠ []) :
    Steps tree base names segment ((onDiskBelow base names).follow? disk segment)
      ((inMemoryBelow tree names).follow? disk segment) := by
  by_cases climbs : segment = ".."
  · have anchored := Path.anchor_absolute disk.workingDirectory fun name member =>
      (laid.legalWhole holds name member).toPlain
    have onDisk := parent?_onDisk (below climbs) anchored
    have inMemory : (inMemoryBelow tree names).parent? disk = _ :=
      parent?_inMemory (.of_plain fun name member => (laid.legalBelow holds name member).toPlain)
        (below climbs)
    rw [follow?, follow?, if_pos (by simpa using climbs), if_pos (by simpa using climbs), inMemory]
    exact onDisk ▸ .up climbs
  · rw [follow?, follow?, if_neg (by simpa using climbs), if_neg (by simpa using climbs)]
    exact child?_steps laid holds (plain climbs)

/-- And so does a walk. -/
theorem followAll?_arrives (laid : LaidOut tree disk base) (holds : tree.Holds names)
    {segments : List String} (plain : ∀ segment ∈ segments, segment ≠ ".." → Path.Plain segment)
    (stays : StaysWithin names.length segments) :
    Arrives tree base ((onDiskBelow base names).followAll? disk segments)
      ((inMemoryBelow tree names).followAll? disk segments) := by
  induction segments generalizing names with
  | nil => exact .there holds
  | cons segment rest ih =>
    obtain ⟨first, later⟩ := List.forall_mem_cons.mp plain
    rw [StaysWithin] at stays
    have below : segment = ".." → names ≠ [] := by
      rintro climbs rfl
      rw [if_pos climbs] at stays
      exact absurd stays.1 (Nat.lt_irrefl 0)
    rw [followAll?, followAll?]
    have steps := follow?_steps laid holds first below
    generalize (onDiskBelow base names).follow? disk segment = one at steps ⊢
    generalize (inMemoryBelow tree names).follow? disk segment = other at steps ⊢
    cases steps with
    | up climbs =>
      rw [if_pos climbs] at stays
      refine ih ?_ later ?_
      · obtain ⟨key, member, start⟩ := holds
        exact ⟨key, member, (List.dropLast_prefix names).trans start⟩
      · rw [List.length_dropLast]
        exact stays.2
    | down descends held =>
      rw [if_neg descends] at stays
      refine ih held later ?_
      rw [List.length_append]
      exact stays
    | nowhere => exact .nowhere

/-! ### Texts -/

theorem readText_eq_ok_iff {reference : Reference} {text : String} :
    reference.readText disk = .ok text ↔ ∃ bytes chars, reference.read disk = .ok bytes ∧
      Text.Utf8.decode bytes = .ok chars ∧ String.ofList chars = text := by
  unfold readText
  cases reference.read disk with
  | error fault => simp
  | ok bytes => cases decoded : Text.Utf8.decode bytes <;> simp [decoded]

theorem read_onDisk_iff {path : String} {content : Bytes} :
    (onDisk path).read disk = .ok content ↔ disk.read path = .ok content := by
  rw [read]
  cases disk.read path <;> simp

theorem read_inMemory_iff {path : String} {content : Bytes} :
    (inMemory tree path).read disk = .ok content ↔ tree.files.get? path = some content := by
  rw [read]
  cases tree.files.get? path <;> simp

/-- Wherever a walk has taken both references, they read the same text there, if any. -/
theorem readText_same (laid : LaidOut tree disk base) (holds : tree.Holds names) (text : String) :
    (onDiskBelow base names).readText disk = .ok text ↔
      (inMemoryBelow tree names).readText disk = .ok text := by
  have read (bytes : Bytes) : (onDiskBelow base names).read disk = .ok bytes ↔
      (inMemoryBelow tree names).read disk = .ok bytes :=
    read_onDisk_iff.trans ((laid.read_eq_ok_iff holds).trans read_inMemory_iff.symm)
  simp only [readText_eq_ok_iff, read]

theorem siblingText_eq_ok_iff {preset : Reference} {relative text : String} :
    preset.siblingText disk relative = .ok text ↔
      ∃ reference, preset.sibling? disk relative = some reference ∧
        reference.readText disk = .ok text := by
  unfold siblingText sibling
  cases preset.sibling? disk relative with
  | none => simp [bind, Except.bind]
  | some reference => simp [bind, Except.bind]

/-! ### From the container of a preset -/

private theorem dropWhile_isSlash {cs : List Char} (opens : ∀ rest, cs ≠ '/' :: rest) :
    cs.dropWhile Path.isSlash = cs := by
  cases cs with
  | nil => rfl
  | cons c rest =>
    refine List.dropWhile_cons_of_neg ?_
    intro slash
    have same : c = '/' := by simpa [Path.isSlash] using slash
    exact opens rest (by rw [same])

/-- There are no slashes to take away from the ends of a path whose pieces are plain names. -/
theorem trimSlashes_of_plain {path : String} (plain : ∀ name ∈ Path.pieces path, Path.Plain name) :
    MemoryTree.trimSlashes path = path := by
  have opens (rest : List Char) : path.toList ≠ '/' :: rest := by
    intro shape
    have pieces := Path.pieces_of_slash (show path.toList = [] ++ '/' :: rest from shape)
    exact (plain "" (by rw [pieces]; exact List.mem_cons_self)).nonempty rfl
  have closes (front : List Char) : path.toList ≠ front ++ ['/'] := by
    intro shape
    have pieces := Path.pieces_of_slash shape
    exact (plain "" (by rw [pieces]; exact List.mem_append_right _ List.mem_cons_self)).nonempty rfl
  have closesBackwards (rest : List Char) : path.toList.reverse ≠ '/' :: rest := by
    intro shape
    refine closes rest.reverse ?_
    rw [← List.reverse_reverse path.toList, shape, List.reverse_cons]
  rw [MemoryTree.trimSlashes, dropWhile_isSlash opens, dropWhile_isSlash closesBackwards,
    List.reverse_reverse, String.ofList_toList]

/-- A relative path leads from the container of a preset to the same place in both. -/
theorem sibling?_arrives {key path relative : String} (laid : LaidOut tree disk base)
    (member : key ∈ tree.files.keys)
    (leads : Path.anchor disk.workingDirectory path = base ++ Path.pieces key)
    (stays : StaysWithin ((Path.pieces key).length - 1) (segments relative)) :
    Arrives tree base ((onDisk path).sibling? disk relative)
      ((tree.reference key).sibling? disk relative) := by
  have plain : ∀ name ∈ Path.pieces key, Path.Plain name :=
    fun name among => (laid.legal key member name among).toPlain
  have something := Path.pieces_ne_nil key
  have reference : tree.reference key = inMemoryBelow tree (Path.pieces key) := by
    rw [MemoryTree.reference, trimSlashes_of_plain plain, inMemoryBelow, Path.join_pieces]
  have holds : tree.Holds (Path.pieces key).dropLast := ⟨key, member, List.dropLast_prefix _⟩
  rw [← List.length_dropLast] at stays
  have walk := followAll?_arrives laid holds (fun segment => plain_of_mem_segments) stays
  rw [reference, sibling?, sibling?, parent?_onDisk something leads,
    parent?_inMemory (.of_plain plain) something]
  split
  · split
    · exact .nowhere
    · split
      · exact .nowhere
      · exact walk
  · exact .nowhere

theorem siblingText_same {key path relative : String} (laid : LaidOut tree disk base)
    (member : key ∈ tree.files.keys)
    (leads : Path.anchor disk.workingDirectory path = base ++ Path.pieces key)
    (stays : StaysWithin ((Path.pieces key).length - 1) (segments relative)) (text : String) :
    (onDisk path).siblingText disk relative = .ok text ↔
      (tree.reference key).siblingText disk relative = .ok text := by
  have arrives := sibling?_arrives laid member leads stays
  rw [siblingText_eq_ok_iff, siblingText_eq_ok_iff]
  generalize (onDisk path).sibling? disk relative = one at arrives ⊢
  generalize (tree.reference key).sibling? disk relative = other at arrives ⊢
  cases arrives with
  | there holds =>
    simpa only [Option.some_inj, exists_eq_left'] using readText_same laid holds text
  | nowhere => rfl

end Reference

/-! ### What is reported -/

namespace ImportedShader

theorem entrySource_preset {disk : Disk} {name content text : String} {reference : Reference} :
    (⟨name, reference, .preset content⟩ : ImportedShader).entrySource disk = .ok text ↔
      ∃ relative, (Preset.parse content).firstShaderPath? = some relative ∧
        reference.siblingText disk relative = .ok text := by
  rw [entrySource]
  simp only [presetContent?, Option.bind_some]
  cases (Preset.parse content).firstShaderPath? <;> simp

end ImportedShader

/-- What an imported preset means is settled by the texts that it can have. -/
theorem Manager.importedFragment_same {disk : Disk} {name content : String} {one other : Reference}
    (same : ∀ text, (⟨name, one, .preset content⟩ : ImportedShader).entrySource disk = .ok text ↔
      (⟨name, other, .preset content⟩ : ImportedShader).entrySource disk = .ok text) :
    importedFragment disk ⟨name, one, .preset content⟩ =
      importedFragment disk ⟨name, other, .preset content⟩ := by
  simp only [importedFragment]
  cases first : (⟨name, one, .preset content⟩ : ImportedShader).entrySource disk with
  | ok text => rw [(same text).mp first]
  | error _ =>
    cases second : (⟨name, other, .preset content⟩ : ImportedShader).entrySource disk with
    | ok text =>
      rw [(same text).mpr second] at first
      cases first
    | error _ => rfl

/-- A preset that lies both on disk and in memory, with the same files around it, names the same
texts from both places. So its first text is the same, and a manager that has imported it from
memory reports of it what one does that has imported it from disk. -/
theorem disk_and_memory_agree {tree : MemoryTree} {disk : Disk} {base : List String}
    {key path : String} {node : Node} (laid : LaidOut tree disk base)
    (held : key ∈ tree.files.keys)
    (named : disk.locate path = .ok (.found (base ++ Path.pieces key) node)) :
    (∀ relative, StaysWithin ((Path.pieces key).length - 1) (Reference.segments relative) →
      ∀ text, (Reference.onDisk path).siblingText disk relative = .ok text ↔
        (tree.reference key).siblingText disk relative = .ok text) ∧
    ∀ name content,
      (∀ relative, (Preset.parse content).firstShaderPath? = some relative →
        StaysWithin ((Path.pieces key).length - 1) (Reference.segments relative)) →
      (∀ text,
        (⟨name, .onDisk path, .preset content⟩ : ImportedShader).entrySource disk = .ok text ↔
          (⟨name, tree.reference key, .preset content⟩ : ImportedShader).entrySource disk =
            .ok text) ∧
      ∀ manager other : Manager,
        manager.registry.get? name = some ⟨name, .onDisk path, .preset content⟩ →
        other.registry.get? name = some ⟨name, tree.reference key, .preset content⟩ →
        manager.fragmentSource disk name = other.fragmentSource disk name ∧
        ∀ {σ : Type} [Store σ] (cache elsewhere : Cache σ) (now later : Millis),
          (manager.resolve cache disk now name).1.origin =
            (other.resolve elsewhere disk later name).1.origin := by
  have leads := Disk.anchor_of_locate named
  have texts (relative : String)
      (stays : StaysWithin ((Path.pieces key).length - 1) (Reference.segments relative))
      (text : String) := Reference.siblingText_same laid held leads stays text
  refine ⟨texts, fun name content stays => ?_⟩
  have entries (text : String) :
      (⟨name, .onDisk path, .preset content⟩ : ImportedShader).entrySource disk = .ok text ↔
        (⟨name, tree.reference key, .preset content⟩ : ImportedShader).entrySource disk =
          .ok text := by
    rw [ImportedShader.entrySource_preset, ImportedShader.entrySource_preset]
    exact exists_congr fun relative => and_congr_right fun first =>
      texts relative (stays relative first) text
  refine ⟨entries, fun manager other imported alsoImported => ?_⟩
  have means : manager.fragmentSource disk name = other.fragmentSource disk name := by
    rw [Manager.fragmentSource, Manager.fragmentSource, imported, alsoImported]
    exact Manager.importedFragment_same entries
  exact ⟨means, fun cache elsewhere now later => congrArg Prod.snd means⟩

/-! ### A shelf -/

/-- Two files in memory, one of them in a directory. -/
def shelfTree : MemoryTree :=
  ⟨⟨[("p.slangp", octets "shader0 = s/../s/a.slang"), ("s/a.slang", octets "main")]⟩⟩

/-- The same files in the home directory of a disk. -/
def shelfDisk : Disk where
  root := ⟨[("home", .directory 0 ⟨[
    ("p.slangp", .file (octets "shader0 = s/../s/a.slang") 0),
    ("s", .directory 0 ⟨[("a.slang", .file (octets "main") 0)]⟩)]⟩)]⟩
  workingDirectory := ["home"]

private theorem shelf_get?_iff (key : String) (content : Bytes) :
    shelfTree.files.get? key = some content ↔
      key = "p.slangp" ∧ content = octets "shader0 = s/../s/a.slang" ∨
        key = "s/a.slang" ∧ content = octets "main" := by
  simp only [shelfTree, Table.get?, Table.find]
  split
  · simp [*, eq_comm]
  · split <;> simp [*, eq_comm]

private theorem shelf_node? (names : List String) : shelfDisk.node? (["home"] ++ names) =
    if names = [] then shelfDisk.node? ["home"]
    else if names = ["p.slangp"] then some (.file (octets "shader0 = s/../s/a.slang") 0)
    else if names = ["s"] then some (.directory 0 ⟨[("a.slang", .file (octets "main") 0)]⟩)
    else if names = ["s", "a.slang"] then some (.file (octets "main") 0)
    else none := by
  rcases names with _ | ⟨first, _ | ⟨second, rest⟩⟩
  · rfl
  · by_cases preset : first = "p.slangp"
    · subst preset
      rfl
    by_cases directory : first = "s"
    · subst directory
      rfl
    · simp [Disk.node?, shelfDisk, Node.at?, Table.get?, Table.find, preset, directory]
  · by_cases preset : first = "p.slangp"
    · simp [Disk.node?, shelfDisk, Node.at?, Table.get?, Table.find, preset]
    by_cases directory : first = "s"
    · by_cases shader : second = "a.slang"
      · cases rest <;>
          simp [Disk.node?, shelfDisk, Node.at?, Table.get?, Table.find, directory, shader]
      · simp [Disk.node?, shelfDisk, Node.at?, Table.get?, Table.find, directory, shader]
    · simp [Disk.node?, shelfDisk, Node.at?, Table.get?, Table.find, preset, directory]

theorem shelf_laidOut : LaidOut shelfTree shelfDisk ["home"] where
  legal := by decide +kernel
  baseLegal := by decide +kernel
  short := by decide +kernel
  file names content := by
    have first : Path.pieces "p.slangp" = ["p.slangp"] := by decide +kernel
    have second : Path.pieces "s/a.slang" = ["s", "a.slang"] := by decide +kernel
    rw [shelf_node?]
    simp only [shelf_get?_iff, or_and_right, exists_or, and_assoc, exists_eq_left, first, second]
    rcases names with _ | ⟨name, _ | ⟨second, _ | ⟨third, rest⟩⟩⟩
    · simp [shelfDisk, Disk.node?, Node.at?, Table.get?, Table.find]
    · by_cases preset : name = "p.slangp"
      · simp [preset, eq_comm]
      · by_cases directory : name = "s" <;> simp [preset, directory, eq_comm]
    · by_cases directory : "s" = name
      · by_cases shader : "a.slang" = second
        · simp [← directory, ← shader, eq_comm (a := content)]
        · simp [shader, Ne.symm shader]
      · simp [directory, Ne.symm directory]
    · simp
  directory names := by
    have keys : shelfTree.files.keys = ["p.slangp", "s/a.slang"] := rfl
    have first : Path.pieces "p.slangp" = ["p.slangp"] := by decide +kernel
    have second : Path.pieces "s/a.slang" = ["s", "a.slang"] := by decide +kernel
    rw [shelf_node?]
    simp only [keys, List.mem_cons, List.not_mem_nil, or_false, exists_eq_or_imp, exists_eq_left,
      first, second]
    rcases names with _ | ⟨name, _ | ⟨second, _ | ⟨third, rest⟩⟩⟩
    · simp [shelfDisk, Disk.node?, Node.at?, Table.get?, Table.find]
    · by_cases directory : name = "s" <;> simp [directory, eq_comm]
    · simp
    · simp

/-- A manager that has imported the preset of the shelf from some place. -/
def shelfManager (place : Reference) : Manager where
  registry := (∅ : Registry).register ⟨"p", place, .preset "shader0 = s/../s/a.slang"⟩

private theorem shelf_locate : shelfDisk.locate "s/../p.slangp" =
    .ok (.found ["home", "p.slangp"] (.file (octets "shader0 = s/../s/a.slang") 0)) := by
  have permitted : Disk.permit "s/../p.slangp" = .ok () := by
    rw [Disk.permit, if_neg (by decide), if_neg (by decide), if_neg (by decide +kernel)]
  have pieces : Path.pieces "s/../p.slangp" = ["s", "..", "p.slangp"] := by decide +kernel
  have relative : Path.isAbsolute "s/../p.slangp" = false := by decide +kernel
  rw [Disk.locate_of_permit permitted, Disk.follow, pieces, relative]
  have short : ∀ name ∈ ["s", "p.slangp"], ¬ Disk.longestName < (octets name).length := by decide
  simp [Disk.walk, Disk.standing, Disk.node?, Node.at?, shelfDisk, Table.get?, Table.find,
    Path.isIdle, short]

private theorem shelf_siblingText : (shelfTree.reference "p.slangp").siblingText shelfDisk
    "s/../s/a.slang" = .ok "main" := by
  have answer : ((shelfTree.reference "p.slangp").siblingText shelfDisk
      "s/../s/a.slang").toOption = some "main" := by
    decide +kernel
  cases outcome : (shelfTree.reference "p.slangp").siblingText shelfDisk "s/../s/a.slang" with
  | ok text =>
    rw [outcome] at answer
    cases answer
    rfl
  | error _ =>
    rw [outcome] at answer
    cases answer

/-- The preset is named by a path through the directory beside it, and names its shader by another.
-/
theorem disk_and_memory_agree_on_shelf :
    LaidOut shelfTree shelfDisk ["home"] ∧ "p.slangp" ∈ shelfTree.files.keys ∧
      (∃ node, shelfDisk.locate "s/../p.slangp" =
        .ok (.found (["home"] ++ Path.pieces "p.slangp") node)) ∧
      (Reference.onDisk "s/../p.slangp").siblingText shelfDisk "s/../s/a.slang" = .ok "main" ∧
      (shelfManager (.onDisk "s/../p.slangp")).fragmentSource shelfDisk "p" = ("main", .preset) := by
  have held : "p.slangp" ∈ shelfTree.files.keys := by decide
  have pieces : Path.pieces "p.slangp" = ["p.slangp"] := by decide +kernel
  have named : shelfDisk.locate "s/../p.slangp" = .ok (.found (["home"] ++ Path.pieces "p.slangp")
      (.file (octets "shader0 = s/../s/a.slang") 0)) := by
    rw [pieces]
    exact shelf_locate
  have segments : Reference.segments "s/../s/a.slang" = ["s", "..", "s", "a.slang"] := by
    decide +kernel
  have stays : StaysWithin ((Path.pieces "p.slangp").length - 1)
      (Reference.segments "s/../s/a.slang") := by
    simp [segments, StaysWithin]
  have first : (Preset.parse "shader0 = s/../s/a.slang").firstShaderPath? =
      some "s/../s/a.slang" := by
    decide +kernel
  have staysFirst : ∀ relative, (Preset.parse "shader0 = s/../s/a.slang").firstShaderPath? =
      some relative → StaysWithin ((Path.pieces "p.slangp").length - 1)
        (Reference.segments relative) := by
    intro relative found
    rw [first] at found
    cases found
    exact stays
  have inMemory : (shelfManager (shelfTree.reference "p.slangp")).fragmentSource shelfDisk "p" =
      ("main", .preset) := by
    decide +kernel
  obtain ⟨texts, reports⟩ := disk_and_memory_agree shelf_laidOut held named
  obtain ⟨-, means⟩ := reports "p" _ staysFirst
  refine ⟨shelf_laidOut, held, ⟨_, named⟩, (texts _ stays "main").mpr shelf_siblingText, ?_⟩
  rw [← inMemory]
  exact (means _ _ (Table.get?_insert_self _ _ _) (Table.get?_insert_self _ _ _)).1

end Overlay
