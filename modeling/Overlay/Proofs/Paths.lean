import Overlay.Disk.Path

/-! What a path is made of when a single name is appended to another path: the pieces of the other
one and that name, and it begins where the other one begins. Names for which this holds are those
that no rule of paths singles out, and a path that is spelled with them alone leads where its pieces
say. -/
namespace Overlay

namespace Text

theorem splitFrom_append {separates : Char → Bool} {mark : Char} (splits : separates mark = true)
    (piece first second : List Char) :
    splitFrom separates piece (first ++ mark :: second) =
      splitFrom separates piece first ++ splitAll separates second := by
  induction first generalizing piece with
  | nil => simp [splitFrom, splits, splitAll]
  | cons c rest ih =>
    rw [List.cons_append, splitFrom, splitFrom]
    by_cases ends : separates c = true
    · rw [if_pos ends, if_pos ends, ih, List.cons_append]
    · rw [if_neg ends, if_neg ends, ih]

theorem splitFrom_plain {separates : Char → Bool} (piece : List Char) {cs : List Char}
    (plain : ∀ c ∈ cs, separates c = false) :
    splitFrom separates piece cs = [piece.reverse ++ cs] := by
  induction cs generalizing piece with
  | nil => simp [splitFrom]
  | cons c rest ih =>
    have later : ∀ c ∈ rest, separates c = false :=
      fun other member => plain other (List.mem_cons_of_mem _ member)
    rw [splitFrom, plain c List.mem_cons_self, if_neg Bool.false_ne_true, ih _ later]
    simp

theorem splitFrom_ne_nil (separates : Char → Bool) (piece cs : List Char) :
    splitFrom separates piece cs ≠ [] := by
  induction cs generalizing piece with
  | nil => exact List.cons_ne_nil _ _
  | cons c rest ih =>
    rw [splitFrom]
    split
    · exact List.cons_ne_nil _ _
    · exact ih _

/-- No separator is left in a piece. -/
theorem mem_splitFrom {separates : Char → Bool} {piece cs part : List Char}
    (clean : ∀ c ∈ piece, separates c = false) (member : part ∈ splitFrom separates piece cs) :
    ∀ c ∈ part, separates c = false := by
  induction cs generalizing piece with
  | nil =>
    obtain rfl := List.mem_singleton.mp member
    exact fun c among => clean c (List.mem_reverse.mp among)
  | cons c rest ih =>
    rw [splitFrom] at member
    split at member
    · rcases List.mem_cons.mp member with rfl | later
      · exact fun c among => clean c (List.mem_reverse.mp among)
      · exact ih (fun c among => absurd among List.not_mem_nil) later
    · rename_i inside
      refine ih ?_ member
      intro other among
      rcases List.mem_cons.mp among with rfl | among
      · exact Bool.eq_false_iff.mpr inside
      · exact clean other among

theorem mem_splitAll {separates : Char → Bool} {cs part : List Char}
    (member : part ∈ splitAll separates cs) : ∀ c ∈ part, separates c = false :=
  mem_splitFrom (fun _ among => absurd among List.not_mem_nil) member

theorem joinWith_cons (mark : Char) (piece : List Char) {rest : List (List Char)} (more : rest ≠ []) :
    joinWith mark (piece :: rest) = piece ++ mark :: joinWith mark rest := by
  cases rest with
  | nil => exact absurd rfl more
  | cons next rest => rfl

theorem joinWith_append (mark : Char) {first second : List (List Char)} (before : first ≠ [])
    (after : second ≠ []) :
    joinWith mark (first ++ second) = joinWith mark first ++ mark :: joinWith mark second := by
  induction first with
  | nil => exact absurd rfl before
  | cons piece rest ih =>
    cases rest with
    | nil => exact joinWith_cons mark piece after
    | cons next rest =>
      rw [List.cons_append, joinWith_cons mark piece (by simp), ih (List.cons_ne_nil _ _),
        joinWith_cons mark piece (List.cons_ne_nil _ _), List.append_assoc, List.cons_append]

theorem mem_joinWith {mark c : Char} {pieces : List (List Char)} (member : c ∈ joinWith mark pieces) :
    c = mark ∨ ∃ piece ∈ pieces, c ∈ piece := by
  induction pieces with
  | nil => cases member
  | cons piece rest ih =>
    cases rest with
    | nil => exact .inr ⟨piece, List.mem_cons_self, member⟩
    | cons next rest =>
      rw [joinWith_cons mark piece (List.cons_ne_nil _ _)] at member
      rcases List.mem_append.mp member with inside | later
      · exact .inr ⟨piece, List.mem_cons_self, inside⟩
      rcases List.mem_cons.mp later with same | later
      · exact .inl same
      rcases ih later with same | ⟨other, among, inside⟩
      · exact .inl same
      · exact .inr ⟨other, List.mem_cons_of_mem _ among, inside⟩

theorem joinWith_splitFrom {separates : Char → Bool} {mark : Char}
    (marks : ∀ c, separates c = true → c = mark) (piece cs : List Char) :
    joinWith mark (splitFrom separates piece cs) = piece.reverse ++ cs := by
  induction cs generalizing piece with
  | nil => simp [splitFrom, joinWith]
  | cons c rest ih =>
    rw [splitFrom]
    split
    · rename_i ends
      rw [joinWith_cons mark _ (splitFrom_ne_nil _ _ _), ih, marks c ends]
      rfl
    · rw [ih, List.reverse_cons, List.append_assoc]
      rfl

theorem splitAll_joinWith {separates : Char → Bool} {mark : Char} (splits : separates mark = true)
    {pieces : List (List Char)} (clean : ∀ piece ∈ pieces, ∀ c ∈ piece, separates c = false)
    (something : pieces ≠ []) : splitAll separates (joinWith mark pieces) = pieces := by
  induction pieces with
  | nil => exact absurd rfl something
  | cons piece rest ih =>
    obtain ⟨first, later⟩ := List.forall_mem_cons.mp clean
    have alone := splitFrom_plain [] first
    cases rest with
    | nil => exact alone
    | cons next rest =>
      rw [joinWith_cons mark piece (List.cons_ne_nil _ _), splitAll, splitFrom_append splits, alone,
        ih later (List.cons_ne_nil _ _)]
      rfl

end Text

namespace Path

/-- A name that stands for itself in a path. -/
structure Plain (name : String) : Prop where
  nonempty : name ≠ ""
  here : name ≠ "."
  up : name ≠ ".."
  slashless : ∀ c ∈ name.toList, isSlash c = false

instance (name : String) : Decidable (Plain name) :=
  decidable_of_iff
    (name ≠ "" ∧ name ≠ "." ∧ name ≠ ".." ∧ name.toList.any isSlash = false)
    ⟨fun ⟨nonempty, here, up, slashless⟩ => ⟨nonempty, here, up, by simpa using slashless⟩,
      fun plain => ⟨plain.nonempty, plain.here, plain.up, by simpa using plain.slashless⟩⟩

theorem Plain.not_idle {name : String} (plain : Plain name) : isIdle name = false := by
  simp [isIdle, plain.nonempty, plain.here]

theorem Plain.pieces_eq {name : String} (plain : Plain name) : pieces name = [name] := by
  unfold pieces Text.splitAll
  rw [Text.splitFrom_plain [] plain.slashless]
  simp

theorem Plain.not_absolute {name : String} (plain : Plain name) : isAbsolute name = false := by
  unfold isAbsolute
  cases letters : name.toList with
  | nil => rfl
  | cons c rest =>
    have member : c ∈ name.toList := by
      rw [letters]
      exact List.mem_cons_self
    have other := plain.slashless c member
    simpa [isSlash] using other

theorem Plain.component_eq {name : String} (plain : Plain name) : component name = .name name := by
  simp [component, plain.here, plain.up]

theorem pieces_ne_nil (path : String) : pieces path ≠ [] := by
  rw [pieces, ne_eq, List.map_eq_nil_iff]
  exact Text.splitFrom_ne_nil _ _ _

/-- The pieces of a path that come before a name appended to it. -/
def piecesBefore (base : String) : List String :=
  if base == "" || base.toList.getLast? == some '/' then (pieces base).dropLast else pieces base

theorem pieces_of_slash {path : String} {first second : List Char}
    (letters : path.toList = first ++ '/' :: second) :
    pieces path = (Text.splitAll isSlash first).map String.ofList ++
      (Text.splitAll isSlash second).map String.ofList := by
  unfold pieces
  rw [letters, Text.splitAll, Text.splitFrom_append rfl, List.map_append]
  rfl

/-- A name appended to a path is one piece more. -/
theorem pieces_append (base : String) {name : String} (plain : Plain name) :
    pieces (append base name) = piecesBefore base ++ [name] := by
  have alone := plain.pieces_eq
  unfold append piecesBefore
  rw [plain.not_absolute, if_neg Bool.false_ne_true]
  by_cases empty : base = ""
  · subst empty
    simpa [pieces, Text.splitAll, Text.splitFrom] using alone
  by_cases ends : base.toList.getLast? = some '/'
  · obtain ⟨first, letters⟩ := List.getLast?_eq_some_iff.mp ends
    have closed : (base == "" || base.toList.getLast? == some '/') = true := by simp [ends]
    rw [if_pos closed, if_pos closed]
    have joined : (base ++ name).toList = first ++ '/' :: name.toList := by
      rw [String.toList_append, letters, List.append_assoc]
      rfl
    rw [pieces_of_slash joined, pieces_of_slash letters]
    change _ ++ pieces name = (_ ++ [""]).dropLast ++ [name]
    rw [alone, List.dropLast_concat]
  · have opened : ¬ (base == "" || base.toList.getLast? == some '/') = true := by
      simp [empty, ends]
    rw [if_neg opened, if_neg opened]
    have joined : (base ++ "/" ++ name).toList = base.toList ++ '/' :: name.toList := by
      simp
    rw [pieces_of_slash joined]
    change pieces base ++ pieces name = _
    rw [alone]

/-- A path is what comes before names appended to it, but for slashes at its end. -/
theorem pieces_eq_before {base : String} (written : base ≠ "") :
    ∃ idle, pieces base = piecesBefore base ++ idle ∧ ∀ piece ∈ idle, isIdle piece = true := by
  unfold piecesBefore
  by_cases ends : base.toList.getLast? = some '/'
  · obtain ⟨first, letters⟩ := List.getLast?_eq_some_iff.mp ends
    rw [if_pos (by simp [ends]), pieces_of_slash letters]
    change ∃ idle, _ ++ [""] = (_ ++ [""]).dropLast ++ idle ∧ _
    rw [List.dropLast_concat]
    exact ⟨[""], rfl, List.forall_mem_singleton.mpr rfl⟩
  · rw [if_neg (by simp [written, ends])]
    exact ⟨[], (List.append_nil _).symm, List.forall_mem_nil _⟩

theorem piecesBefore_ne_nil {base : String} (written : base ≠ "") : piecesBefore base ≠ [] := by
  unfold piecesBefore
  by_cases ends : base.toList.getLast? = some '/'
  · obtain ⟨first, letters⟩ := List.getLast?_eq_some_iff.mp ends
    rw [if_pos (by simp [ends]), pieces_of_slash letters]
    change (_ ++ [""]).dropLast ≠ []
    rw [List.dropLast_concat, ne_eq, List.map_eq_nil_iff]
    exact Text.splitFrom_ne_nil _ _ _
  · rw [if_neg (by simp [written, ends])]
    exact pieces_ne_nil base

/-- A name appended to a path is one component more. -/
theorem components_append (base : String) {name : String} (plain : Plain name) :
    components (append base name) = components base ++ [.name name] := by
  have named : component name = .name name := plain.component_eq
  by_cases empty : base = ""
  · subst empty
    rw [components, pieces_append "" plain]
    change (if (name == "") = true then [] else [component name]) = _
    rw [if_neg (by simpa using plain.nonempty), named]
    rfl
  obtain ⟨idle, pieces, idles⟩ := pieces_eq_before empty
  obtain ⟨first, rest, before⟩ := List.exists_cons_of_ne_nil (piecesBefore_ne_nil empty)
  have silent : idle.filter (fun piece => !isIdle piece) = [] := by
    simpa [List.filter_eq_nil_iff] using idles
  have kept : [name].filter (fun piece => !isIdle piece) = [name] := by
    simp [plain.not_idle]
  rw [components, components, pieces_append base plain, pieces, before]
  simp only [List.cons_append, List.filter_append, silent, kept, List.append_nil, List.map_append,
    List.map_cons, List.map_nil, named]
  split <;> simp

/-- A path with a name appended begins where it began. -/
theorem isAbsolute_append (base : String) {name : String} (plain : Plain name) :
    isAbsolute (append base name) = isAbsolute base := by
  have relative := plain.not_absolute
  unfold append
  rw [relative, if_neg Bool.false_ne_true]
  cases letters : base.toList with
  | nil =>
    have empty : base = "" := String.toList_eq_nil_iff.mp letters
    subst empty
    simpa [isAbsolute] using relative
  | cons c rest =>
    unfold isAbsolute
    split
    · rw [String.toList_append, letters]
      rfl
    · rw [String.toList_append, String.toList_append, letters]
      rfl

/-- A path that ends with a name has no slashes after it. -/
theorem withoutEnd_append (base : String) {name : String} (plain : Plain name) :
    withoutEnd (append base name) = append base name := by
  have written : name.toList ≠ [] := fun empty => plain.nonempty (String.toList_eq_nil_iff.mp empty)
  obtain ⟨first, letters⟩ : ∃ first, (append base name).toList = first ++ name.toList := by
    unfold append
    rw [plain.not_absolute, if_neg Bool.false_ne_true]
    split
    · exact ⟨base.toList, String.toList_append⟩
    · exact ⟨(base ++ "/").toList, String.toList_append⟩
  have last : (append base name).toList.reverse.dropWhile isSlash =
      (append base name).toList.reverse := by
    rw [letters, List.reverse_append]
    cases backwards : name.toList.reverse with
    | nil => exact absurd (List.reverse_eq_nil_iff.mp backwards) written
    | cons c rest =>
      have member : c ∈ name.toList := by
        rw [← List.mem_reverse, backwards]
        exact List.mem_cons_self
      exact List.dropWhile_cons_of_neg (by rw [plain.slashless c member]; exact nofun)
  unfold withoutEnd
  rw [last, List.reverse_reverse]
  dsimp only
  rw [String.ofList_toList, ite_self]

/-- The letters of a path below another are those of the two, and slashes. -/
theorem mem_append {base path : String} {c : Char} (member : c ∈ (append base path).toList) :
    c ∈ base.toList ∨ c = '/' ∨ c ∈ path.toList := by
  unfold append at member
  split at member
  · exact .inr (.inr member)
  · split at member
    · rw [String.toList_append] at member
      exact (List.mem_append.mp member).imp_right .inr
    · rw [String.toList_append, String.toList_append, List.append_assoc] at member
      refine (List.mem_append.mp member).imp_right fun later => ?_
      exact (List.mem_append.mp later).imp_left fun slash => List.mem_singleton.mp slash

/-! ### Stems and extensions -/

/-- The pieces between the dots, joined again, are the text. -/
private theorem join_dots (cs : List Char) :
    Text.joinWith '.' (Text.splitAll (· == '.') cs) = cs :=
  Text.joinWith_splitFrom (fun c is => by simpa using is) [] cs

/-- What is cut off as an extension follows the last dot. -/
private theorem extended_of_splitExtension {name stem extension : String}
    (split : splitExtension name = (stem, some extension)) :
    name = stem ++ "." ++ extension ∧ stem ≠ "" ∧ '.' ∉ extension.toList ∧ name ≠ ".." := by
  have joined := join_dots name.toList
  unfold splitExtension at split
  split at split
  · cases split
  rename_i notUp
  split at split
  · rename_i last before rest pieces
    dsimp only at split
    split at split
    · cases split
    · rename_i something
      cases split
      have order : Text.splitAll (· == '.') name.toList = (before :: rest).reverse ++ [last] := by
        rw [← List.reverse_reverse (Text.splitAll _ _), pieces, List.reverse_cons]
      have clean := Text.mem_splitAll
        (show last ∈ Text.splitAll (· == '.') name.toList by simp [order])
      rw [order, Text.joinWith_append '.' (by simp) (by simp)] at joined
      refine ⟨?_, ?_, ?_, by simpa using notUp⟩
      · rw [← String.toList_inj, ← joined]
        simp [Text.joinWith]
      · intro empty
        have letters := congrArg String.toList empty
        rw [String.toList_ofList] at letters
        rw [letters] at something
        exact something rfl
      · rw [String.toList_ofList]
        intro member
        exact absurd (clean '.' member) (by decide)
  · cases split

/-- A name is cut before its last dot. -/
private theorem splitExtension_extended {stem extension : String} (something : stem ≠ "")
    (clean : '.' ∉ extension.toList) (notUp : stem ++ "." ++ extension ≠ "..") :
    splitExtension (stem ++ "." ++ extension) = (stem, some extension) := by
  have letters : (stem ++ "." ++ extension).toList = stem.toList ++ '.' :: extension.toList := by
    simp
  have alone : Text.splitFrom (· == '.') [] extension.toList = [extension.toList] := by
    refine Text.splitFrom_plain [] fun c member => ?_
    rw [beq_eq_false_iff_ne]
    rintro rfl
    exact clean member
  have pieces : Text.splitAll (· == '.') (stem ++ "." ++ extension).toList =
      Text.splitAll (· == '.') stem.toList ++ [extension.toList] := by
    rw [letters, Text.splitAll, Text.splitFrom_append rfl, Text.splitAll, alone]
    rfl
  obtain ⟨before, rest, order⟩ : ∃ before rest,
      (Text.splitAll (· == '.') stem.toList).reverse = before :: rest :=
    List.exists_cons_of_ne_nil (by
      rw [ne_eq, List.reverse_eq_nil_iff]
      exact Text.splitFrom_ne_nil _ _ _)
  have back : Text.joinWith '.' (before :: rest).reverse = stem.toList := by
    rw [← order, List.reverse_reverse]
    exact join_dots stem.toList
  unfold splitExtension
  rw [if_neg (by simpa using notUp), pieces, List.reverse_append, List.reverse_singleton,
    List.singleton_append, order]
  dsimp only
  rw [back, if_neg (by simpa using something), String.ofList_toList, String.ofList_toList]

/-- A name is split at its last dot, if something stands before it. -/
theorem splitExtension_eq_some_iff {name stem extension : String} :
    splitExtension name = (stem, some extension) ↔
      name = stem ++ "." ++ extension ∧ stem ≠ "" ∧ '.' ∉ extension.toList ∧ name ≠ ".." := by
  refine ⟨extended_of_splitExtension, ?_⟩
  rintro ⟨rfl, something, clean, notUp⟩
  exact splitExtension_extended something clean notUp

/-! ### Names joined to a path -/

private theorem toList_comp_ofList : String.toList ∘ String.ofList = id :=
  funext fun _ => String.toList_ofList

private theorem ofList_comp_toList : String.ofList ∘ String.toList = id :=
  funext fun _ => String.ofList_toList

theorem join_pieces (path : String) : join (pieces path) = path := by
  have slash : ∀ c, isSlash c = true → c = '/' := fun c is => by simpa [isSlash] using is
  rw [join, pieces, List.map_map, toList_comp_ofList, List.map_id, Text.splitAll,
    Text.joinWith_splitFrom slash]
  exact String.ofList_toList

theorem pieces_join {names : List String} (slashless : ∀ name ∈ names, ∀ c ∈ name.toList,
    isSlash c = false) (something : names ≠ []) : pieces (join names) = names := by
  have clean : ∀ piece ∈ names.map String.toList, ∀ c ∈ piece, isSlash c = false := by
    intro piece member
    obtain ⟨name, among, rfl⟩ := List.mem_map.mp member
    exact slashless name among
  rw [pieces, join, String.toList_ofList, Text.splitAll_joinWith rfl clean (by simpa using something),
    List.map_map, ofList_comp_toList, List.map_id]

theorem join_append {first second : List String} (before : first ≠ []) (after : second ≠ []) :
    join (first ++ second) = join first ++ "/" ++ join second := by
  rw [← String.toList_inj, join, List.map_append, String.toList_ofList,
    Text.joinWith_append '/' (by simpa using before) (by simpa using after)]
  simp [join]

@[simp] theorem join_singleton (name : String) : join [name] = name :=
  String.ofList_toList

/-- Names that are found again in the path they are joined to: no slash is in one, and no empty one
comes first. -/
structure Spelled (names : List String) : Prop where
  slashless : ∀ name ∈ names, ∀ c ∈ name.toList, isSlash c = false
  opens : names.head? ≠ some ""

namespace Spelled
variable {names : List String}

theorem of_plain (plain : ∀ name ∈ names, Plain name) : Spelled names where
  slashless name member := (plain name member).slashless
  opens first := (plain "" (List.mem_of_mem_head? first)).nonempty rfl

theorem dropLast (spelled : Spelled names) : Spelled names.dropLast where
  slashless name member := spelled.slashless name (List.dropLast_subset _ member)
  opens first := by
    rw [List.head?_dropLast] at first
    split at first
    · exact spelled.opens first
    · cases first

theorem concat (spelled : Spelled names) {name : String} (plain : Plain name) :
    Spelled (names ++ [name]) where
  slashless := List.forall_mem_append.mpr
    ⟨spelled.slashless, List.forall_mem_singleton.mpr plain.slashless⟩
  opens first := by
    rw [List.head?_append] at first
    cases before : names.head? with
    | none =>
      rw [before] at first
      exact plain.nonempty (Option.some.inj first)
    | some other =>
      rw [before] at first
      exact spelled.opens (before.trans first)

/-- The pieces of a path that is not empty and has no slash in front. -/
theorem of_relative {path : String} (relative : isAbsolute path = false) (written : path ≠ "") :
    Spelled (pieces path) where
  slashless name member := by
    obtain ⟨piece, split, rfl⟩ := List.mem_map.mp member
    rw [String.toList_ofList]
    exact Text.mem_splitAll split
  opens first := by
    obtain ⟨rest, shape⟩ := List.head?_eq_some_iff.mp first
    have whole := join_pieces path
    rw [shape] at whole
    cases rest with
    | nil => exact written whole.symm
    | cons next rest =>
      rw [← List.singleton_append, join_append (List.cons_ne_nil _ _) (List.cons_ne_nil _ _),
        join_singleton] at whole
      rw [← whole, isAbsolute, String.toList_append, String.toList_append] at relative
      cases relative

/-- Only no names at all are joined to the empty path. -/
theorem join_eq_empty (spelled : Spelled names) : join names = "" ↔ names = [] := by
  constructor
  · intro empty
    cases names with
    | nil => rfl
    | cons name rest =>
      have same := pieces_join spelled.slashless (List.cons_ne_nil name rest)
      rw [empty] at same
      have nothing : name = "" := (List.cons.inj same).1.symm
      exact absurd (congrArg some nothing) spelled.opens
  · rintro rfl
    rfl

end Spelled

theorem pieces_slash (path : String) : pieces ("/" ++ path) = "" :: pieces path :=
  pieces_of_slash (show ("/" ++ path).toList = [] ++ '/' :: path.toList from String.toList_append)

theorem isAbsolute_absolute (names : List String) : isAbsolute (absolute names) = true := by
  rw [isAbsolute, absolute, String.toList_append]
  rfl

theorem components_absolute {names : List String} (plain : ∀ name ∈ names, Plain name) :
    components (absolute names) = names.map .name := by
  have kept : names.filter (fun piece => !isIdle piece) = names :=
    List.filter_eq_self.mpr fun name member => by simp [(plain name member).not_idle]
  rw [components, absolute, pieces_slash]
  cases names with
  | nil => rfl
  | cons name rest =>
    rw [pieces_join (fun name member => (plain name member).slashless) (List.cons_ne_nil _ _)]
    simp only [beq_self_eq_true, ↓reduceIte, kept]
    exact List.map_congr_left fun name member => (plain name member).component_eq

theorem fold_names (start names : List String) : fold start (names.map .name) = start ++ names := by
  induction names generalizing start with
  | nil => simp [fold]
  | cons name rest ih =>
    have one := ih (start ++ [name])
    rw [fold, List.reverse_append] at one
    simpa [fold, advance] using one

@[simp] theorem fold_nil (names : List String) : fold names [] = names :=
  List.reverse_reverse names

/-- A path is folded one component after the other. -/
theorem fold_cons (start : List String) (first : Component) (rest : List Component) :
    fold start (first :: rest) = fold (fold start [first]) rest := by
  simp only [fold, List.foldl_cons, List.foldl_nil, List.reverse_reverse]

@[simp] theorem fold_up (names : List String) : fold names [.up] = names.dropLast := by
  simp [fold, advance]

/-- An absolute path of plain names leads from anywhere where the names say. -/
theorem anchor_absolute (workingDirectory : List String) {names : List String}
    (plain : ∀ name ∈ names, Plain name) : anchor workingDirectory (absolute names) = names := by
  rw [anchor, if_pos (isAbsolute_absolute names), components_absolute plain, fold_names,
    List.nil_append]

/-- No slash stands at the end of an absolute path but that of the root. -/
theorem getLast?_absolute {names : List String} (plain : ∀ name ∈ names, Plain name)
    (something : names ≠ []) : (absolute names).toList.getLast? ≠ some '/' := by
  obtain ⟨init, last, rfl⟩ : ∃ init last, names = init ++ [last] :=
    ⟨names.dropLast, names.getLast something, (List.dropLast_concat_getLast something).symm⟩
  have ends : ∃ before, (absolute (init ++ [last])).toList = before ++ last.toList := by
    cases init with
    | nil => exact ⟨['/'], by simp [absolute]⟩
    | cons first rest =>
      rw [absolute, join_append (List.cons_ne_nil _ _) (List.cons_ne_nil _ _), join_singleton]
      exact ⟨'/' :: (join (first :: rest)).toList ++ ['/'], by simp⟩
  obtain ⟨before, shape⟩ := ends
  have alone := plain last (by simp)
  cases final : last.toList.getLast? with
  | none =>
    exact absurd (String.toList_eq_nil_iff.mp (List.getLast?_eq_none_iff.mp final)) alone.nonempty
  | some c =>
    rw [shape, List.getLast?_append, final, Option.some_or]
    rintro ⟨⟩
    exact absurd (alone.slashless '/' (List.mem_of_getLast? final)) (by decide)

theorem append_absolute {names : List String} (plain : ∀ name ∈ names, Plain name) {name : String}
    (also : Plain name) : append (absolute names) name = absolute (names ++ [name]) := by
  have nonempty : absolute names ≠ "" := by
    intro empty
    have slash := isAbsolute_absolute names
    rw [empty] at slash
    cases slash
  rw [append, also.not_absolute, if_neg Bool.false_ne_true]
  cases names with
  | nil => simp [absolute, join, Text.joinWith]
  | cons first rest =>
    have inside := getLast?_absolute plain (List.cons_ne_nil _ _)
    rw [if_neg (by simp [nonempty, inside]), absolute, absolute,
      join_append (List.cons_ne_nil _ _) (List.cons_ne_nil _ _), join_singleton]
    simp [String.append_assoc]

end Path
end Overlay
