import Overlay.Proofs.ReferenceAgreement

/-! Where a relative path leads in a tree held in memory. A walk looks at every step whether the tree
has what the step names, and otherwise does nothing but fold the path: a name is put behind the names
of the place, two dots take the last one away. So either some step finds nothing, or the walk comes
to where folding the whole path leads, which is a place of the tree again. The names of the place that
a walk starts from are those of the key of the preset as they stand, the empty ones between two
slashes included, and a walk may go into a file and back out. -/
namespace Overlay

namespace MemoryTree

/-! ### Keys -/

/-- A path with the slashes taken away from its ends does not begin with one. -/
theorem isAbsolute_trimSlashes (path : String) : Path.isAbsolute (trimSlashes path) = false := by
  rw [Path.isAbsolute, trimSlashes, String.toList_ofList, beq_eq_false_iff_ne]
  intro opens
  -- What is taken away at the end leaves a beginning of what the slashes in front have left.
  obtain ⟨rest, shape⟩ := List.reverse_prefix.mpr
    (List.dropWhile_suffix (l := (path.toList.dropWhile Path.isSlash).reverse) Path.isSlash)
  rw [List.reverse_reverse] at shape
  have first : (path.toList.dropWhile Path.isSlash).head? = some '/' := by
    rw [← shape, List.head?_append, opens, Option.some_or]
  have kept := List.head?_dropWhile_not Path.isSlash path.toList
  rw [first] at kept
  exact absurd kept (by decide)

/-- The keys of a tree are the paths of its files without the slashes at their ends. -/
theorem mem_keys_ofList {files : List (String × Bytes)} {key : String} :
    key ∈ (ofList files).files.keys ↔ ∃ file ∈ files, key = trimSlashes file.1 := by
  have grown (tree : MemoryTree) :
      key ∈ (files.foldl (fun tree file => tree.withFile file.1 file.2) tree).files.keys ↔
        (∃ file ∈ files, key = trimSlashes file.1) ∨ key ∈ tree.files.keys := by
    induction files generalizing tree with
    | nil => simp
    | cons file rest ih =>
      rw [List.foldl_cons, ih, withFile, Table.mem_keys_insert]
      simp only [List.mem_cons, exists_eq_or_imp]
      rw [← or_assoc, or_comm (a := ∃ file ∈ rest, _)]
  rw [ofList, grown]
  exact or_iff_left List.not_mem_nil

/-- The names of a key are found again in it. -/
theorem spelled_of_mem_ofList {files : List (String × Bytes)} {key : String}
    (member : key ∈ (ofList files).files.keys) (named : key ≠ "") :
    Path.Spelled (Path.pieces key) := by
  obtain ⟨file, -, shape⟩ := mem_keys_ofList.mp member
  refine Path.Spelled.of_relative ?_ named
  rw [shape]
  exact isAbsolute_trimSlashes file.1

/-! ### Steps that find nothing -/

/-- A step that finds nothing: it would climb above the top, or it names what the tree does not
have. -/
def Refuses (tree : MemoryTree) (place : List String) (segment : String) : Prop :=
  if segment = ".." then place = [] else ¬ tree.Holds (place ++ [segment])

instance (tree : MemoryTree) (place : List String) (segment : String) :
    Decidable (tree.Refuses place segment) :=
  inferInstanceAs (Decidable (if segment = ".." then place = [] else _))

/-- Some step of a walk finds nothing at the place that folding the steps before it leads to. -/
def Strays (tree : MemoryTree) (place segments : List String) : Prop :=
  ∃ before segment after, segments = before ++ segment :: after ∧
    tree.Refuses (Path.fold place (before.map Path.component)) segment

variable {tree : MemoryTree} {place : List String}

theorem not_strays_nil : ¬ tree.Strays place [] := by
  rintro ⟨before, segment, after, shape, -⟩
  simp at shape

theorem strays_cons_iff {segment : String} {rest : List String} :
    tree.Strays place (segment :: rest) ↔ tree.Refuses place segment ∨
      tree.Strays (Path.fold place [Path.component segment]) rest := by
  constructor
  · rintro ⟨before, refused, after, shape, refuses⟩
    cases before with
    | nil =>
      cases shape
      rw [List.map_nil, Path.fold_nil] at refuses
      exact .inl refuses
    | cons first before =>
      cases shape
      rw [List.map_cons, Path.fold_cons] at refuses
      exact .inr ⟨before, refused, after, rfl, refuses⟩
  · rintro (refuses | ⟨before, refused, after, rfl, refuses⟩)
    · refine ⟨[], segment, rest, rfl, ?_⟩
      rwa [List.map_nil, Path.fold_nil]
    · refine ⟨segment :: before, refused, after, rfl, ?_⟩
      rwa [List.map_cons, Path.fold_cons]

instance decidableStrays (tree : MemoryTree) :
    (place segments : List String) → Decidable (tree.Strays place segments)
  | _, [] => isFalse not_strays_nil
  | place, segment :: rest =>
    have := decidableStrays tree (Path.fold place [Path.component segment]) rest
    decidable_of_iff _ strays_cons_iff.symm

/-- What a tree holds is a file, or a directory that a file lies in. -/
theorem Holds.file_or_directory (holds : tree.Holds place) :
    Path.join place ∈ tree.files.keys ∨
      ∃ key ∈ tree.files.keys, ∃ name rest, Path.pieces key = place ++ name :: rest := by
  obtain ⟨key, member, rest, shape⟩ := holds
  cases rest with
  | nil =>
    rw [List.append_nil] at shape
    rw [shape, Path.join_pieces]
    exact .inl member
  | cons name rest => exact .inr ⟨key, member, name, rest, shape.symm⟩

end MemoryTree

namespace Reference

variable {tree : MemoryTree} {disk : Disk} {names : List String} {segment : String}

/-! ### A step -/

/-- Where a single step folds to: to the container, or into an entry. -/
theorem fold_component (names : List String) (plain : segment ≠ ".." → Path.Plain segment) :
    Path.fold names [Path.component segment] =
      if segment = ".." then names.dropLast else names ++ [segment] := by
  by_cases climbs : segment = ".."
  · rw [if_pos climbs, climbs]
    exact Path.fold_up names
  · rw [if_neg climbs, (plain climbs).component_eq]
    exact Path.fold_names names [segment]

/-- A step goes where it folds to, unless it finds nothing. -/
theorem follow?_inMemory (spelled : Path.Spelled names)
    (plain : segment ≠ ".." → Path.Plain segment) :
    (inMemoryBelow tree names).follow? disk segment = if tree.Refuses names segment then none
      else some (inMemoryBelow tree (Path.fold names [Path.component segment])) := by
  rw [fold_component names plain, follow?]
  by_cases climbs : segment = ".."
  · simp only [MemoryTree.Refuses, climbs, beq_self_eq_true, ↓reduceIte]
    by_cases top : names = []
    · rw [if_pos top, top]
      rfl
    · rw [if_neg top, parent?_inMemory spelled top]
  · simp only [MemoryTree.Refuses, climbs, beq_iff_eq, ↓reduceIte, ite_not]
    exact child?_inMemory spelled (plain climbs)

/-- A step keeps to names that are found again and that the tree holds. -/
theorem fold_stands (spelled : Path.Spelled names) (holds : tree.Holds names)
    (plain : segment ≠ ".." → Path.Plain segment) (finds : ¬ tree.Refuses names segment) :
    Path.Spelled (Path.fold names [Path.component segment]) ∧
      tree.Holds (Path.fold names [Path.component segment]) := by
  rw [fold_component names plain]
  rw [MemoryTree.Refuses] at finds
  by_cases climbs : segment = ".."
  · rw [if_pos climbs]
    obtain ⟨key, member, start⟩ := holds
    exact ⟨spelled.dropLast, key, member, (List.dropLast_prefix names).trans start⟩
  · rw [if_neg climbs] at finds ⊢
    exact ⟨spelled.concat (plain climbs), Decidable.not_not.mp finds⟩

/-! ### A walk -/

/-- A walk fails exactly if some step of it finds nothing, and otherwise comes to a place of the tree,
where folding the steps leads. -/
theorem followAll?_inMemory (spelled : Path.Spelled names) (holds : tree.Holds names)
    {segments : List String} (plain : ∀ segment ∈ segments, segment ≠ ".." → Path.Plain segment) :
    (inMemoryBelow tree names).followAll? disk segments = none ∧ tree.Strays names segments ∨
      (inMemoryBelow tree names).followAll? disk segments =
          some (inMemoryBelow tree (Path.fold names (segments.map Path.component))) ∧
        ¬ tree.Strays names segments ∧
        tree.Holds (Path.fold names (segments.map Path.component)) := by
  induction segments generalizing names with
  | nil =>
    rw [List.map_nil, Path.fold_nil]
    exact .inr ⟨rfl, MemoryTree.not_strays_nil, holds⟩
  | cons segment rest ih =>
    obtain ⟨first, later⟩ := List.forall_mem_cons.mp plain
    rw [followAll?, follow?_inMemory spelled first, MemoryTree.strays_cons_iff, List.map_cons,
      Path.fold_cons names _ (rest.map Path.component)]
    by_cases refuses : tree.Refuses names segment
    · rw [if_pos refuses]
      exact .inl ⟨rfl, .inl refuses⟩
    · obtain ⟨stillSpelled, stillHolds⟩ := fold_stands spelled holds first refuses
      rw [if_neg refuses, or_iff_right refuses]
      exact ih stillSpelled stillHolds later

/-- A relative path leads nowhere from a place: it is anchored at a root, it has no segment that says
anything, or a step of it finds nothing. -/
def LeadsNowhere (tree : MemoryTree) (place : List String) (relative : String) : Prop :=
  (∃ c, relative.toList.head? = some c ∧ isSeparator c = true) ∨ segments relative = [] ∨
    tree.Strays place (segments relative)

instance (tree : MemoryTree) (place : List String) (relative : String) :
    Decidable (LeadsNowhere tree place relative) :=
  decidable_of_iff (relative.toList.head?.any isSeparator = true ∨ segments relative = [] ∨
      tree.Strays place (segments relative)) (by rw [LeadsNowhere, Option.any_eq_true])

theorem sibling?_inMemory (disk : Disk) (spelled : Path.Spelled names) (something : names ≠ [])
    (holds : tree.Holds names) (relative : String) :
    (inMemoryBelow tree names).sibling? disk relative = none ∧
        LeadsNowhere tree names.dropLast relative ∨
      (inMemoryBelow tree names).sibling? disk relative = some (inMemoryBelow tree
          (Path.fold names.dropLast ((segments relative).map Path.component))) ∧
        ¬ LeadsNowhere tree names.dropLast relative ∧
        tree.Holds (Path.fold names.dropLast ((segments relative).map Path.component)) := by
  rw [sibling?, parent?_inMemory spelled something, LeadsNowhere]
  cases opens : relative.toList.head? with
  | none =>
    obtain rfl : relative = "" := String.toList_eq_nil_iff.mp (List.head?_eq_none_iff.mp opens)
    exact .inl ⟨rfl, .inr (.inl rfl)⟩
  | some c =>
    by_cases separates : isSeparator c = true
    · exact .inl ⟨if_pos separates, .inl ⟨c, rfl, separates⟩⟩
    have unanchored : ¬ ∃ first, some c = some first ∧ isSeparator first = true := by
      rintro ⟨first, ⟨⟩, slash⟩
      exact separates slash
    dsimp only
    rw [if_neg separates, or_iff_right unanchored]
    split
    · rename_i silent
      exact .inl ⟨rfl, .inl silent⟩
    · rename_i told
      obtain ⟨key, member, start⟩ := holds
      have start := (List.dropLast_prefix names).trans start
      rw [Option.bind_some, or_iff_right told]
      exact followAll?_inMemory spelled.dropLast ⟨key, member, start⟩
        fun segment => plain_of_mem_segments

end Reference

open Reference in
/-- A relative path that a preset of a tree gives leads nowhere exactly if it begins with a slash of
either kind, has no segment that says anything, or has a segment that finds nothing where those before
it lead from the container of the preset: two dots at the top, or a name under which there is neither
a file nor a directory on the way to one. Otherwise it leads where folding its segments leads from
the names of the container, and there is a file of the tree, or a directory, such as the top, that a
file lies in. -/
theorem siblings_stay_within_tree {files : List (String × Bytes)} {key : String}
    (held : key ∈ (MemoryTree.ofList files).files.keys) (named : key ≠ "") (disk : Disk)
    (relative : String) :
    let tree := MemoryTree.ofList files
    let preset := Reference.inMemory tree key
    let container := (Path.pieces key).dropLast
    let goal := Path.fold container ((segments relative).map Path.component)
    (preset.sibling disk relative =
        .error (.notFound (relative ++ " (from memory:/" ++ key ++ ")")) ↔
      LeadsNowhere tree container relative) ∧
    (¬ LeadsNowhere tree container relative →
      preset.sibling disk relative = .ok (.inMemory tree (Path.join goal)) ∧
      (Path.join goal ∈ tree.files.keys ∨
        ∃ other ∈ tree.files.keys, ∃ name rest, Path.pieces other = goal ++ name :: rest)) := by
  intro tree preset container goal
  have outcome := sibling?_inMemory disk (MemoryTree.spelled_of_mem_ofList held named)
    (Path.pieces_ne_nil key) (show tree.Holds (Path.pieces key) from ⟨key, held, List.prefix_rfl⟩)
    relative
  rw [inMemoryBelow, Path.join_pieces] at outcome
  have origin : " (from memory:/" = " (from " ++ "memory:/" := by decide
  rcases outcome with ⟨fails, nowhere⟩ | ⟨leads, somewhere, holds⟩
  · have answer : preset.sibling disk relative =
        .error (.notFound (relative ++ " (from memory:/" ++ key ++ ")")) := by
      rw [sibling, fails, describe, origin]
      simp only [String.append_assoc]
    exact ⟨iff_of_true answer nowhere, fun somewhere => absurd nowhere somewhere⟩
  · have answer : preset.sibling disk relative = .ok (.inMemory tree (Path.join goal)) := by
      rw [sibling, leads]
      rfl
    refine ⟨iff_of_false ?_ somewhere, fun _ => ⟨answer, holds.file_or_directory⟩⟩
    rw [answer]
    intro same
    cases same

/-- A preset under a key with an empty name in it, and a file beside its container. -/
private def doubled : MemoryTree :=
  MemoryTree.ofList [("/a//p.slangp", octets "shader0 = .."), ("a/f.glsl", octets "main")]

open Reference in
/-- A path that goes into a file and back out comes to that file; one that climbs once more than
there are names finds nothing. -/
theorem siblings_stay_within_doubled_tree : "a//p.slangp" ∈ doubled.files.keys ∧
    Reference.sibling {} (.inMemory doubled "a//p.slangp") "..\\f.glsl/.././f.glsl" =
      .ok (.inMemory doubled "a/f.glsl") ∧
    Reference.sibling {} (.inMemory doubled "a//p.slangp") "../../.." =
      .error (.notFound "../../.. (from memory:/a//p.slangp)") := by
  have held : "a//p.slangp" ∈ doubled.files.keys := by decide +kernel
  obtain ⟨-, leads⟩ := siblings_stay_within_tree held (by decide) {} "..\\f.glsl/.././f.glsl"
  obtain ⟨fails, -⟩ := siblings_stay_within_tree held (by decide) {} "../../.."
  refine ⟨held, ?_, fails.mpr (by decide +kernel)⟩
  have goal : Path.join (Path.fold (Path.pieces "a//p.slangp").dropLast
      ((segments "..\\f.glsl/.././f.glsl").map Path.component)) = "a/f.glsl" := by
    decide +kernel
  rw [← goal]
  exact (leads (by decide +kernel)).1

end Overlay
