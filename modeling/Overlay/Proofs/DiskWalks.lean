import Overlay.Disk
import Overlay.Proofs.Paths
import Overlay.Proofs.Table

/-! Where paths lead on a disk that changes. A walk passes through directories only, so a disk on
which every directory still holds the directories it held leads every walk to where it led before;
files that come and go along the way do not divert it. -/
namespace Overlay

/-- Names that go on from where others lead. -/
theorem Node.at?_append (first second : List String) (node : Node) :
    node.at? (first ++ second) = (node.at? first).bind (Node.at? second) := by
  induction first generalizing node with
  | nil => rfl
  | cons name rest ih =>
    cases node with
    | file content changed => rfl
    | directory changed entries =>
      simp only [List.cons_append, Node.at?]
      cases entries.get? name with
      | none => rfl
      | some next => exact ih next

/-- What names lead to a directory through is directories. -/
theorem Node.at?_cons_directory {name : String} {rest : List String} {entries inner : Directory}
    {own changed : Millis}
    (found : (Node.directory own entries).at? (name :: rest) = some (.directory changed inner)) :
    ∃ time deeper, entries.get? name = some (.directory time deeper) ∧
      (Node.directory time deeper).at? rest = some (.directory changed inner) := by
  rw [Node.at?] at found
  obtain ⟨node, held, found⟩ := Option.bind_eq_some_iff.1 found
  cases node with
  | directory time deeper => exact ⟨time, deeper, held, found⟩
  | file content time =>
    cases rest with
    | nil => cases found
    | cons _ _ => cases found

namespace Directory

/-- A change of a directory that leaves the directories in it alone. -/
def KeepsDirectories (what : Directory → Directory) (entries : Directory) : Prop :=
  ∀ name changed inner, entries.get? name = some (.directory changed inner) →
    (what entries).get? name = some (.directory changed inner)

/-- After such a change directories are where they were, with the directories they held. -/
theorem at?_change_directory {what : Directory → Directory} {names path : List String}
    {entries inner : Directory} {own changed : Millis}
    (keeps : ∀ time there, (Node.directory own entries).at? names = some (.directory time there) →
      KeepsDirectories what there)
    (found : (Node.directory own entries).at? path = some (.directory changed inner)) :
    ∃ after, (Node.directory own (entries.change what names)).at? path =
        some (.directory changed after) ∧
      ∀ name time deeper, inner.get? name = some (.directory time deeper) →
        ∃ time deeper, after.get? name = some (.directory time deeper) := by
  induction names generalizing own entries path with
  | nil =>
    have kept := keeps own entries rfl
    cases path with
    | nil =>
      cases found
      exact ⟨_, rfl, fun name time deeper held => ⟨time, deeper, kept _ _ _ held⟩⟩
    | cons name rest =>
      obtain ⟨time, deeper, held, found⟩ := Node.at?_cons_directory found
      refine ⟨inner, ?_, fun name time deeper held => ⟨time, deeper, held⟩⟩
      rw [change, Node.at?, kept _ _ _ held]
      exact found
  | cons first names ih =>
    rw [change]
    split
    · rename_i time there held
      cases path with
      | nil =>
        cases found
        refine ⟨_, rfl, ?_⟩
        intro name changed deeper holds
        rw [Table.get?_insert]
        split
        · exact ⟨_, _, rfl⟩
        · exact ⟨_, _, holds⟩
      | cons name rest =>
        obtain ⟨changed, deeper, holds, found⟩ := Node.at?_cons_directory found
        by_cases same : name = first
        · subst same
          rw [held] at holds
          cases holds
          rw [Node.at?, Table.get?_insert_self]
          refine ih ?_ found
          intro time within leads
          refine keeps time within ?_
          rw [Node.at?, held]
          exact leads
        · refine ⟨inner, ?_, fun name time deeper held => ⟨time, deeper, held⟩⟩
          rw [Node.at?, Table.get?_insert_of_ne _ _ same, holds]
          exact found
    · exact ⟨inner, found, fun name time deeper held => ⟨time, deeper, held⟩⟩

end Directory
namespace Disk

/-- The entries of the directory that names lead to, none if they lead to no directory. -/
def entriesAt (disk : Disk) (names : List String) : Directory :=
  match disk.node? names with
  | some (.directory _ entries) => entries
  | _ => ∅

/-- The directory, last name first, that pieces lead to from another one. -/
def leads (disk : Disk) (reached : List String) : List String → Option (List String)
  | [] => some reached
  | piece :: rest =>
    if Path.isIdle piece then disk.leads reached rest
    else if piece == ".." then disk.leads reached.tail rest
    else
      match (disk.entriesAt reached.reverse).get? piece with
      | some (.directory ..) => disk.leads (piece :: reached) rest
      | _ => none

/-- What a walk stands on has the entries found under its names. -/
theorem entriesAt_of_standing {disk : Disk} {names : List String} {changed : Millis}
    {entries : Directory} (stands : disk.standing names = .directory changed entries) :
    disk.entriesAt names = entries := by
  unfold standing at stands
  unfold entriesAt
  cases there : disk.node? names with
  | none =>
    rw [there] at stands
    cases stands
    rfl
  | some node =>
    rw [there] at stands
    cases stands
    rfl

theorem there_of_standing {disk : Disk} {names : List String} {changed : Millis}
    {entries : Directory} (stands : disk.standing names = .directory changed entries)
    (real : (disk.node? names).isSome = true) :
    disk.node? names = some (.directory changed entries) := by
  obtain ⟨node, there⟩ := Option.isSome_iff_exists.mp real
  unfold standing at stands
  rw [there] at stands
  rw [there, ← stands]
  rfl

/-- One name more leads to an entry. -/
theorem node?_concat (disk : Disk) (names : List String) (name : String) :
    disk.node? (names ++ [name]) = (disk.entriesAt names).get? name := by
  unfold entriesAt node?
  rw [Node.at?_append]
  cases there : (Node.directory 0 disk.root).at? names with
  | none => rfl
  | some node =>
    rw [Option.bind_some]
    cases node with
    | file content changed => rfl
    | directory changed entries =>
      rw [Node.at?]
      cases entries.get? name <;> rfl

/-- An entry of a directory is found under one name more. -/
theorem node?_of_entry {disk : Disk} {names : List String} {name : String} {node : Node}
    (held : (disk.entriesAt names).get? name = some node) :
    disk.node? (names ++ [name]) = some node :=
  (node?_concat disk names name).trans held

theorem there_of_entry {disk : Disk} {names : List String} {name : String} {node : Node}
    (held : (disk.entriesAt names).get? name = some node) :
    ∃ changed entries, disk.node? names = some (.directory changed entries) := by
  unfold entriesAt at held
  split at held
  · exact ⟨_, _, ‹_›⟩
  · cases held

/-- The disk on which the directory under some names has been changed. -/
def changing (disk : Disk) (what : Directory → Directory) (names : List String) : Disk :=
  { disk with root := disk.root.change what names }

theorem put_eq_changing (disk : Disk) (names : List String) (name : String) (node : Node) :
    disk.put (names ++ [name]) node = disk.changing (·.insert name node) names := by
  simp [put, change, changing]

theorem remove_eq_changing (disk : Disk) (names : List String) (name : String) :
    disk.remove (names ++ [name]) = disk.changing (·.erase name) names := by
  simp [remove, change, changing]

section Changing
variable {disk : Disk} {what : Directory → Directory} {names : List String}

theorem entriesAt_changing {changed : Millis} {entries : Directory}
    (there : disk.node? names = some (.directory changed entries)) :
    (disk.changing what names).entriesAt names = what (disk.entriesAt names) := by
  have after := Directory.at?_change what there
  unfold entriesAt
  rw [there]
  change (match (Node.directory 0 (disk.root.change what names)).at? names with
    | some (.directory _ entries) => entries
    | _ => ∅) = _
  rw [after]

/-- A directory in a directory stays where it is. -/
theorem directory_changing (keeps : Directory.KeepsDirectories what (disk.entriesAt names))
    {path : List String} {name : String} {time : Millis} {deeper : Directory}
    (held : (disk.entriesAt path).get? name = some (.directory time deeper)) :
    ∃ time deeper, ((disk.changing what names).entriesAt path).get? name =
      some (.directory time deeper) := by
  unfold entriesAt at held
  split at held
  · rename_i changed entries there
    have keepsThere : ∀ time within, (Node.directory 0 disk.root).at? names =
        some (.directory time within) → Directory.KeepsDirectories what within := by
      intro time within found
      unfold entriesAt node? at keeps
      rw [found] at keeps
      exact keeps
    obtain ⟨after, found, kept⟩ := Directory.at?_change_directory keepsThere there
    unfold entriesAt
    change ∃ _ _, (match (Node.directory 0 (disk.root.change what names)).at? path with
      | some (.directory _ entries) => entries
      | _ => ∅).get? name = _
    rw [found]
    exact kept name time deeper held
  · cases held

/-- Every walk through directories leads where it led. -/
theorem leads_changing (keeps : Directory.KeepsDirectories what (disk.entriesAt names))
    {reached pieces place : List String} (led : disk.leads reached pieces = some place) :
    (disk.changing what names).leads reached pieces = some place := by
  induction pieces generalizing reached with
  | nil => exact led
  | cons piece rest ih =>
    rw [leads] at led ⊢
    by_cases idle : Path.isIdle piece = true
    · rw [if_pos idle] at led ⊢
      exact ih led
    · rw [if_neg idle] at led ⊢
      by_cases up : (piece == "..") = true
      · rw [if_pos up] at led ⊢
        exact ih led
      · rw [if_neg up] at led ⊢
        split at led
        · rename_i held
          obtain ⟨time, deeper, still⟩ := directory_changing keeps held
          rw [still]
          exact ih led
        · cases led

end Changing

/-- Where the walk through pieces and one name more ends: at an entry of the directory that the
pieces lead to, at a name that is missing there, or nowhere. -/
inductive Enters (disk : Disk) (reached pieces : List String) (name : String) :
    Except DiskFault Place → Prop where
  | found {place : List String} {node : Node} (led : disk.leads reached pieces = some place)
    (held : (disk.entriesAt place.reverse).get? name = some node) :
    Enters disk reached pieces name (.ok (.found (place.reverse ++ [name]) node))
  | missing {place : List String} {changed : Millis} {entries : Directory}
    (led : disk.leads reached pieces = some place)
    (absent : (disk.entriesAt place.reverse).get? name = none)
    (there : disk.node? place.reverse = some (.directory changed entries)) :
    Enters disk reached pieces name (.ok (.missing (place.reverse ++ [name]) false))
  | lost (nowhere : ∀ place, disk.leads reached pieces = some place →
      (disk.entriesAt place.reverse).get? name = none) :
    Enters disk reached pieces name (.error .notFound)
  | refused {fault : DiskFault} (other : fault ≠ .notFound) :
    Enters disk reached pieces name (.error fault)

/-- Where a walk ends depends on its way only through the directory it comes to. -/
theorem Enters.congr {disk : Disk} {reached pieces elsewhere others : List String} {name : String}
    {outcome : Except DiskFault Place} (enters : Enters disk elsewhere others name outcome)
    (same : disk.leads reached pieces = disk.leads elsewhere others) :
    Enters disk reached pieces name outcome := by
  cases enters with
  | found led held => exact .found (same.trans led) held
  | missing led absent there => exact .missing (same.trans led) absent there
  | lost nowhere => exact .lost fun place led => nowhere place (same.symm.trans led)
  | refused other => exact .refused other

/-- From a directory that is there a name leads to the entry, or to where it is missing. -/
theorem walk_last {disk : Disk} {reached : List String} {changed : Millis} {entries : Directory}
    {name : String}
    (there : disk.node? reached.reverse = some (.directory changed entries))
    (plain : Path.Plain name) :
    disk.walk reached (.directory changed entries) [name] =
      if longestName < (octets name).length then .error .nameTooLong
      else
        match entries.get? name with
        | some node => .ok (.found (reached.reverse ++ [name]) node)
        | none => .ok (.missing (reached.reverse ++ [name]) false) := by
  rw [walk, if_neg (by simp [plain.not_idle]), if_neg (by simpa using plain.up)]
  split
  · rfl
  · cases entries.get? name with
    | some node => simp [walk]
    | none => simp [there]

/-- The last step of a walk, from the directory it has come to. -/
theorem walk_name (disk : Disk) (reached : List String) {name : String} (plain : Path.Plain name) :
    Enters disk reached [] name
      (disk.walk reached (disk.standing reached.reverse) [name]) := by
  cases stands : disk.standing reached.reverse with
  | file content changed =>
    rw [walk]
    exact .refused nofun
  | directory changed entries =>
    have here := entriesAt_of_standing stands
    rw [walk]
    simp only [plain.not_idle, Bool.false_eq_true, ↓reduceIte, beq_iff_eq, plain.up]
    split
    · exact .refused nofun
    · cases held : entries.get? name with
      | some node =>
        rw [← here] at held
        have found : Enters disk reached [] name (.ok (.found (reached.reverse ++ [name]) node)) :=
          .found rfl held
        simpa [walk] using found
      | none =>
        rw [← here] at held
        simp only [List.all_nil, Bool.true_and, List.isEmpty_nil, Bool.not_true]
        split
        · rename_i real
          have there := there_of_standing stands real
          have missing : Enters disk reached [] name
            (.ok (.missing (reached.reverse ++ [name]) false)) := .missing rfl held there
          simpa using missing
        · refine .lost ?_
          rintro place ⟨⟩
          exact held

/-- A walk that ends with a plain name ends at that name in the directory the others lead to. -/
theorem walk_enters (disk : Disk) (reached pieces : List String) {name : String}
    (plain : Path.Plain name) :
    Enters disk reached pieces name
      (disk.walk reached (disk.standing reached.reverse) (pieces ++ [name])) := by
  induction pieces generalizing reached with
  | nil => exact walk_name disk reached plain
  | cons piece rest ih =>
    cases stands : disk.standing reached.reverse with
    | file content changed =>
      rw [List.cons_append, walk]
      exact .refused nofun
    | directory changed entries =>
      have here := entriesAt_of_standing stands
      rw [List.cons_append, walk]
      by_cases idle : Path.isIdle piece = true
      · rw [if_pos idle, ← stands]
        refine (ih reached).congr ?_
        rw [leads, if_pos idle]
      rw [if_neg idle]
      by_cases up : (piece == "..") = true
      · rw [if_pos up]
        refine (ih reached.tail).congr ?_
        rw [leads, if_neg idle, if_pos up]
      rw [if_neg up]
      split
      · exact .refused nofun
      · split
        · rename_i next held
          rw [← here] at held
          have stands' : next = disk.standing (piece :: reached).reverse := by
            rw [List.reverse_cons, standing, node?_of_entry held]
            rfl
          cases next with
          | directory time deeper =>
            rw [stands']
            refine (ih (piece :: reached)).congr ?_
            rw [leads, if_neg idle, if_neg up, held]
          | file content time =>
            cases rest with
            | nil =>
              rw [List.nil_append, walk]
              exact .refused nofun
            | cons next rest =>
              rw [List.cons_append, walk]
              exact .refused nofun
        · rename_i absent
          have goesOn : (rest ++ [name]).all (· == "") = false := by
            simp [plain.nonempty]
          rw [goesOn, Bool.false_and, if_neg Bool.false_ne_true]
          refine .lost ?_
          intro place led
          rw [leads, if_neg idle, if_neg up, here, absent] at led
          cases led

/-! ### Paths of plain names -/

/-- A name that a disk can keep and that stands for itself in a path. -/
structure Legal (name : String) : Prop extends Path.Plain name where
  nulless : '\x00' ∉ name.toList
  short : (octets name).length ≤ longestName

instance (name : String) : Decidable (Legal name) :=
  decidable_of_iff
    (Path.Plain name ∧ '\x00' ∉ name.toList ∧ (octets name).length ≤ longestName)
    ⟨fun ⟨plain, nulless, short⟩ => ⟨plain, nulless, short⟩,
      fun legal => ⟨legal.toPlain, legal.nulless, legal.short⟩⟩

/-- Where a walk finds a node is where its pieces lead when they are folded by the text alone. -/
theorem walk_folds {disk : Disk} {reached pieces names : List String} {node there : Node}
    (found : disk.walk reached node pieces = .ok (.found names there)) :
    names = (((pieces.filter fun piece => !Path.isIdle piece).map Path.component).foldl Path.advance
      reached).reverse := by
  induction pieces generalizing reached node with
  | nil =>
    cases found
    rfl
  | cons piece rest ih =>
    cases node with
    | file content changed => cases found
    | directory changed entries =>
      rw [walk] at found
      by_cases idle : Path.isIdle piece = true
      · rw [if_pos idle] at found
        rw [ih found, List.filter_cons_of_neg (by simp [idle])]
      rw [if_neg idle] at found
      rw [List.filter_cons_of_pos (by simpa using idle), List.map_cons, List.foldl_cons]
      have named : piece ≠ "." := fun dot => idle (by simp [Path.isIdle, dot])
      by_cases up : (piece == "..") = true
      · rw [if_pos up] at found
        rw [ih found, Path.component, if_neg (by simpa using named), if_pos up]
        rfl
      rw [if_neg up] at found
      rw [Path.component, if_neg (by simpa using named), if_neg up]
      split at found
      · cases found
      split at found
      · exact ih found
      · split at found <;> cases found

/-- Folding looks at the pieces that are not idle. -/
theorem foldl_components (path : String) (start : List String) :
    (Path.components path).foldl Path.advance start =
      (((Path.pieces path).filter fun piece => !Path.isIdle piece).map Path.component).foldl
        Path.advance start := by
  rw [Path.components]
  cases Path.pieces path with
  | nil => rfl
  | cons first rest =>
    by_cases root : first = ""
    · subst root
      rfl
    by_cases here : first = "."
    · subst here
      rfl
    · have said : Path.isIdle first = false := by simp [Path.isIdle, root, here]
      simp [root, said]

/-- A path that is not refused is followed. -/
theorem locate_of_permit {disk : Disk} {path : String} (permitted : permit path = .ok ()) :
    disk.locate path = disk.follow path := by
  rw [locate, permitted]
  rfl

theorem permitted_of_locate {disk : Disk} {path : String} {place : Place}
    (located : disk.locate path = .ok place) : permit path = .ok () := by
  cases permitted : permit path with
  | ok _ => rfl
  | error fault =>
    rw [locate, permitted] at located
    cases located

theorem follow_of_locate {disk : Disk} {path : String} {place : Place}
    (located : disk.locate path = .ok place) : disk.follow path = .ok place := by
  rwa [← locate_of_permit (permitted_of_locate located)]

theorem locate_of_stat {disk : Disk} {path : String} {node : Node}
    (found : disk.stat path = .ok node) :
    ∃ names, disk.locate path = .ok (.found names node) := by
  unfold stat at found
  cases located : disk.locate path with
  | error fault =>
    rw [located] at found
    cases found
  | ok place =>
    rw [located] at found
    cases place with
    | found names there =>
      cases found
      exact ⟨names, rfl⟩
    | missing names mustBeDirectory => cases found

/-- A path that names a node names it where folding its text leads. -/
theorem anchor_of_locate {disk : Disk} {path : String} {names : List String} {node : Node}
    (found : disk.locate path = .ok (.found names node)) :
    Path.anchor disk.workingDirectory path = names := by
  have followed := follow_of_locate found
  rw [follow] at followed
  rw [walk_folds followed, Path.anchor, Path.fold, foldl_components]

theorem at?_of_walk {disk : Disk} {reached names place : List String} {node there : Node}
    (plain : ∀ name ∈ names, Path.Plain name)
    (found : disk.walk reached node names = .ok (.found place there)) :
    node.at? names = some there := by
  induction names generalizing reached node with
  | nil =>
    cases found
    rfl
  | cons name rest ih =>
    obtain ⟨first, later⟩ := List.forall_mem_cons.mp plain
    cases node with
    | file content changed => cases found
    | directory changed entries =>
      rw [walk, if_neg (by simp [first.not_idle]), if_neg (by simpa using first.up)] at found
      split at found
      · cases found
      rw [Node.at?]
      split at found
      · rename_i held
        rw [held]
        exact ih later found
      · split at found <;> cases found

theorem walk_of_at? {disk : Disk} {reached names : List String} {node there : Node}
    (legal : ∀ name ∈ names, Legal name) (found : node.at? names = some there) :
    disk.walk reached node names = .ok (.found (reached.reverse ++ names) there) := by
  induction names generalizing reached node with
  | nil =>
    cases found
    simp [walk]
  | cons name rest ih =>
    obtain ⟨first, later⟩ := List.forall_mem_cons.mp legal
    cases node with
    | file content changed => cases found
    | directory changed entries =>
      rw [Node.at?] at found
      obtain ⟨next, held, found⟩ := Option.bind_eq_some_iff.mp found
      rw [walk, if_neg (by simp [first.not_idle]), if_neg (by simpa using first.up),
        if_neg (Nat.not_lt.mpr first.short), held]
      have further : disk.walk (name :: reached) next rest = _ := ih later found
      simpa using further

/-- From the root an absolute path of plain names is followed name by name. -/
theorem follow_absolute (disk : Disk) {names : List String}
    (plain : ∀ name ∈ names, Path.Plain name) :
    disk.follow (Path.absolute names) = disk.walk [] (.directory 0 disk.root) names := by
  rw [follow, if_pos (Path.isAbsolute_absolute names), Path.absolute, Path.pieces_slash]
  cases names with
  | nil => rfl
  | cons first rest =>
    rw [Path.pieces_join (fun name member => (plain name member).slashless) (List.cons_ne_nil _ _)]
    rfl

theorem permit_eq_ok_iff {path : String} :
    permit path = .ok () ↔
      '\x00' ∉ path.toList ∧ path ≠ "" ∧ (octets path).length ≤ longestPath := by
  unfold permit
  constructor
  · intro permitted
    split at permitted
    · cases permitted
    split at permitted
    · cases permitted
    split at permitted
    · cases permitted
    · rename_i clean written short
      exact ⟨by simpa using clean, by simpa using written, Nat.not_lt.mp short⟩
  · rintro ⟨clean, written, short⟩
    rw [if_neg (by simpa using clean), if_neg (by simpa using written),
      if_neg (Nat.not_lt.mpr short)]

theorem permit_absolute {names : List String} (legal : ∀ name ∈ names, Legal name)
    (short : (octets (Path.absolute names)).length ≤ longestPath) :
    permit (Path.absolute names) = .ok () := by
  have letters : '\x00' ∉ (Path.absolute names).toList := by
    rw [Path.absolute, Path.join, String.toList_append]
    intro member
    rcases List.mem_append.mp member with slash | inside
    · exact absurd slash (by decide)
    rw [String.toList_ofList] at inside
    rcases Text.mem_joinWith inside with slash | ⟨piece, among, inside⟩
    · exact absurd slash (by decide)
    · obtain ⟨name, member, rfl⟩ := List.mem_map.mp among
      exact (legal name member).nulless inside
  have nonempty : Path.absolute names ≠ "" := by
    intro empty
    have slash := Path.isAbsolute_absolute names
    rw [empty] at slash
    cases slash
  exact permit_eq_ok_iff.mpr ⟨letters, nonempty, short⟩

/-- What an absolute path of plain names is found to name lies under the names. -/
theorem node?_of_stat {disk : Disk} {names : List String} {node : Node}
    (plain : ∀ name ∈ names, Path.Plain name)
    (found : disk.stat (Path.absolute names) = .ok node) : disk.node? names = some node := by
  obtain ⟨place, located⟩ := locate_of_stat found
  have followed := follow_of_locate located
  rw [follow_absolute disk plain] at followed
  exact at?_of_walk plain followed

/-- What lies under legal names is found by their path, unless that is too long. -/
theorem stat_of_node? {disk : Disk} {names : List String} {node : Node}
    (legal : ∀ name ∈ names, Legal name)
    (short : (octets (Path.absolute names)).length ≤ longestPath)
    (there : disk.node? names = some node) : disk.stat (Path.absolute names) = .ok node := by
  have followed : disk.walk [] (.directory 0 disk.root) names = _ := walk_of_at? legal there
  rw [← follow_absolute disk fun name member => (legal name member).toPlain] at followed
  rw [stat, locate_of_permit (permit_absolute legal short), followed]
  rfl

/-! ### Walks that come to a directory -/

/-- What lies above a node is a directory. -/
theorem node?_of_child {disk : Disk} {names : List String} {name : String} {node : Node}
    (there : disk.node? (names ++ [name]) = some node) :
    ∃ changed entries, disk.node? names = some (.directory changed entries) ∧
      entries.get? name = some node := by
  unfold node? at there ⊢
  rw [Node.at?_append] at there
  obtain ⟨parent, above, there⟩ := Option.bind_eq_some_iff.mp there
  cases parent with
  | file content changed => cases there
  | directory changed entries =>
    rw [Node.at?] at there
    obtain ⟨child, held, same⟩ := Option.bind_eq_some_iff.mp there
    cases same
    exact ⟨changed, entries, above, held⟩

/-- Climbing from a directory that exists comes to one. -/
theorem node?_tail {disk : Disk} {reached : List String} {node : Node}
    (there : disk.node? reached.reverse = some node) :
    ∃ changed entries, disk.node? reached.tail.reverse = some (.directory changed entries) := by
  cases reached with
  | nil => exact ⟨0, disk.root, rfl⟩
  | cons name rest =>
    rw [List.reverse_cons] at there
    obtain ⟨changed, entries, above, -⟩ := node?_of_child there
    exact ⟨changed, entries, above⟩

theorem standing_of_there {disk : Disk} {names : List String} {node : Node}
    (there : disk.node? names = some node) : disk.standing names = node := by
  rw [standing, there]
  rfl

theorem entriesAt_of_there {disk : Disk} {names : List String} {changed : Millis}
    {entries : Directory} (there : disk.node? names = some (.directory changed entries)) :
    disk.entriesAt names = entries :=
  entriesAt_of_standing (standing_of_there there)

/-- Where short pieces lead, a walk comes to, and goes on from there. -/
theorem walk_of_leads {disk : Disk} {reached pieces place : List String} {changed : Millis}
    {entries : Directory} (led : disk.leads reached pieces = some place)
    (short : ∀ piece ∈ pieces, (octets piece).length ≤ longestName)
    (there : disk.node? reached.reverse = some (.directory changed entries)) :
    ∃ time inner, disk.node? place.reverse = some (.directory time inner) ∧
      ∀ rest, disk.walk reached (.directory changed entries) (pieces ++ rest) =
        disk.walk place (.directory time inner) rest := by
  induction pieces generalizing reached changed entries with
  | nil =>
    cases led
    exact ⟨changed, entries, there, fun rest => rfl⟩
  | cons piece others ih =>
    obtain ⟨first, later⟩ := List.forall_mem_cons.mp short
    rw [leads] at led
    by_cases idle : Path.isIdle piece = true
    · rw [if_pos idle] at led
      obtain ⟨time, inner, within, goesOn⟩ := ih led later there
      refine ⟨time, inner, within, fun rest => ?_⟩
      rw [List.cons_append, walk, if_pos idle, goesOn]
    rw [if_neg idle] at led
    by_cases up : (piece == "..") = true
    · rw [if_pos up] at led
      obtain ⟨above, outer, climbed⟩ := node?_tail there
      obtain ⟨time, inner, within, goesOn⟩ := ih led later climbed
      refine ⟨time, inner, within, fun rest => ?_⟩
      rw [List.cons_append, walk, if_neg idle, if_pos up, standing_of_there climbed, goesOn]
    rw [if_neg up, entriesAt_of_there there] at led
    split at led
    · rename_i own deeper held
      have next : disk.node? (piece :: reached).reverse = some (.directory own deeper) := by
        rw [← entriesAt_of_there there] at held
        rw [List.reverse_cons]
        exact node?_of_entry held
      obtain ⟨time, inner, within, goesOn⟩ := ih led later next
      refine ⟨time, inner, within, fun rest => ?_⟩
      rw [List.cons_append, walk, if_neg idle, if_neg up, if_neg (Nat.not_lt.mpr first), held]
      exact goesOn rest
    · cases led

/-- A walk that comes to a directory comes to where its pieces lead, and they are short. -/
theorem leads_of_walk {disk : Disk} {reached pieces names : List String} {time : Millis}
    {inner : Directory}
    (found : disk.walk reached (disk.standing reached.reverse) pieces =
      .ok (.found names (.directory time inner))) :
    disk.leads reached pieces = some names.reverse ∧
      disk.standing names = .directory time inner ∧
      ∀ piece ∈ pieces, (octets piece).length ≤ longestName := by
  induction pieces generalizing reached with
  | nil =>
    rw [walk] at found
    injection found with found
    injection found with same stands
    subst same
    exact ⟨by rw [List.reverse_reverse]; rfl, stands, List.forall_mem_nil _⟩
  | cons piece others ih =>
    cases stands : disk.standing reached.reverse with
    | file content own =>
      rw [stands] at found
      cases found
    | directory own entries =>
      have here := entriesAt_of_standing stands
      rw [stands, walk] at found
      rw [leads, List.forall_mem_cons]
      by_cases idle : Path.isIdle piece = true
      · rw [if_pos idle, ← stands] at found
        rw [if_pos idle]
        obtain ⟨led, there, short⟩ := ih found
        refine ⟨led, there, ?_, short⟩
        have said : piece = "" ∨ piece = "." := by simpa [Path.isIdle] using idle
        rcases said with rfl | rfl
        · exact Nat.zero_le _
        · decide
      rw [if_neg idle] at found ⊢
      by_cases up : (piece == "..") = true
      · rw [if_pos up] at found ⊢
        obtain ⟨led, there, short⟩ := ih found
        refine ⟨led, there, ?_, short⟩
        obtain rfl : piece = ".." := by simpa using up
        decide
      rw [if_neg up] at found ⊢
      rw [here]
      split at found
      · cases found
      · rename_i short
        split at found
        · rename_i next held
          have further : next = disk.standing (piece :: reached).reverse := by
            rw [← here] at held
            rw [List.reverse_cons, standing_of_there (node?_of_entry held)]
          cases next with
          | directory deep deeper =>
            rw [further] at found
            obtain ⟨led, there, later⟩ := ih found
            rw [held]
            exact ⟨led, there, Nat.not_lt.mp short, later⟩
          | file content deep =>
            cases others with
            | nil => cases found
            | cons _ _ => cases found
        · split at found
          · cases found
          · cases found

/-- A piece that says nothing may be left out at the end. -/
theorem leads_append_idle {disk : Disk} {reached pieces idle : List String}
    (idles : ∀ piece ∈ idle, Path.isIdle piece = true) :
    disk.leads reached (pieces ++ idle) = disk.leads reached pieces := by
  induction pieces generalizing reached with
  | nil =>
    induction idle with
    | nil => rfl
    | cons piece rest ih =>
      obtain ⟨first, later⟩ := List.forall_mem_cons.mp idles
      change (if Path.isIdle piece then disk.leads reached rest else _) = _
      rw [if_pos first]
      exact ih later
  | cons piece rest ih =>
    rw [List.cons_append, leads, leads]
    split
    · exact ih
    · split
      · exact ih
      · split
        · exact ih
        · rfl

theorem walk_idle {disk : Disk} {reached idle : List String} {changed : Millis}
    {entries : Directory} (idles : ∀ piece ∈ idle, Path.isIdle piece = true) :
    disk.walk reached (.directory changed entries) idle =
      .ok (.found reached.reverse (.directory changed entries)) := by
  induction idle with
  | nil => rfl
  | cons piece rest ih =>
    obtain ⟨first, later⟩ := List.forall_mem_cons.mp idles
    rw [walk, if_pos first]
    exact ih later

/-- A directory stays where it is. -/
theorem there_changing {disk : Disk} {what : Directory → Directory} {names path : List String}
    {time : Millis} {inner : Directory}
    (keeps : Directory.KeepsDirectories what (disk.entriesAt names))
    (there : disk.node? path = some (.directory time inner)) :
    ∃ after, (disk.changing what names).node? path = some (.directory time after) := by
  have keepsThere : ∀ time within, disk.node? names = some (.directory time within) →
      Directory.KeepsDirectories what within := by
    intro time within found
    rw [entriesAt_of_there found] at keeps
    exact keeps
  obtain ⟨after, found, -⟩ := Directory.at?_change_directory keepsThere there
  exact ⟨after, found⟩

end Disk
end Overlay
