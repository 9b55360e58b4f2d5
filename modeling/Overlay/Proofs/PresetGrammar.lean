import Overlay.Preset
import Overlay.Proofs.Lines
import Overlay.Proofs.Numeral
import Overlay.Proofs.Table

/-! What a preset says. The grammar is stated line by line and without the reader: a line assigns a
value to a key or it says nothing, a key names a setting or it names none, and of several lines that
set the same thing the last one counts. The beginnings of the keys overlap, but what follows them is
digits alone, so a key names one setting at most and the order in which the reader tries the
beginnings does not show. -/
namespace Overlay.Preset

/-! ### The grammar -/

/-- A value without the double quotes around it, if there is one at either end. -/
inductive Unquotes : List Char → List Char → Prop where
  | quoted (value : List Char) : Unquotes ('"' :: value ++ ['"']) value
  | bare {value : List Char} (unpaired : ∀ inner, value ≠ '"' :: inner ++ ['"']) :
    Unquotes value value

/-- A line that is no comment assigns what stands after its first equals sign to what stands before
it, blanks around either being no part of it. -/
inductive Assigns (line key value : List Char) : Prop where
  | intro {before after : List Char} (shape : Text.trim line = before ++ '=' :: after)
    (first : '=' ∉ before) (written : (Text.trim line).head? ≠ some '#')
    (names : key = Text.trim before) (holds : Unquotes (Text.trim after) value)

/-- A key that is a beginning and then digits that write an index, leading zeros included. -/
structure Indexes (start : String) (index : Nat) (key : List Char) : Prop where
  written : ∃ digits, key = start.toList ++ digits ∧ digits ≠ [] ∧
    (∀ c ∈ digits, Numeral.isDigit c = true) ∧ Numeral.ofDigits digits = index

/-- A value that writes a count of thirty-two bits, with a plus sign or without. -/
structure Counts (value : List Char) (count : Nat) : Prop where
  written : ∃ digits, (value = digits ∨ value = '+' :: digits) ∧ digits ≠ [] ∧
    (∀ c ∈ digits, Numeral.isDigit c = true) ∧ Numeral.ofDigits digits = count
  within : count ≤ Numeral.max32

/-- What a line says of the count. -/
def SaysCount (line : List Char) (count : Nat) : Prop :=
  ∃ key value, Assigns line key value ∧ key = "shaders".toList ∧ Counts value count

/-- What the last of some lines that say anything says. -/
def LastSaid {α : Type} (tells : List Char → α → Prop) (lines : List (List Char)) (what : α) :
    Prop :=
  ∃ earlier line later, lines = earlier ++ line :: later ∧ tells line what ∧
    ∀ other ∈ later, ∀ another, ¬ tells other another

/-- A table holds, for each index of thirty-two bits, what the last line makes of its value that
assigns one to a key with the beginning and the index. -/
structure Tabulates {α : Type} (content : String) (start : String) (entry : List Char → α)
    (table : Table Nat α) : Prop where
  defined (index : Nat) : (table.get? index).isSome = true ↔
    index ≤ Numeral.max32 ∧ ∃ line ∈ Text.lines content.toList, ∃ key value,
      Assigns line key value ∧ Indexes start index key
  last (index : Nat) (held : α) : table.get? index = some held ↔
    index ≤ Numeral.max32 ∧
      LastSaid (fun line held => ∃ key value, Assigns line key value ∧ Indexes start index key ∧
        held = entry value) (Text.lines content.toList) held

/-! ### Reading a line -/

theorem unquotes_iff {text value : List Char} : Unquotes text value ↔ unquote text = value := by
  have paired (inner : List Char) : unquote ('"' :: inner ++ ['"']) = inner := by
    have found : Text.before? ['"'] (inner ++ ['"']) = some inner :=
      Text.before?_eq_some_iff.mpr rfl
    rw [List.cons_append, unquote, found, Option.getD_some]
  have unpaired (lone : ∀ inner, text ≠ '"' :: inner ++ ['"']) : unquote text = text := by
    unfold unquote
    split
    · rename_i rest
      cases found : Text.before? ['"'] rest with
      | none => rfl
      | some inner =>
        exact absurd (congrArg ('"' :: ·) (Text.before?_eq_some_iff.mp found)) (lone inner)
    · rfl
  constructor
  · rintro (_ | lone)
    · exact paired value
    · exact unpaired lone
  · rintro rfl
    by_cases pair : ∃ inner, text = '"' :: inner ++ ['"']
    · obtain ⟨inner, rfl⟩ := pair
      rw [paired]
      exact .quoted inner
    · rw [unpaired (not_exists.mp pair)]
      exact .bare (not_exists.mp pair)

/-- What a line sets is what its key and its value set, and a line that assigns nothing sets
nothing. -/
theorem ofLine?_eq_some_iff {line : List Char} {setting : Setting} :
    Setting.ofLine? line = some setting ↔
      ∃ key value, Assigns line key value ∧ Setting.ofPair? key value = some setting := by
  constructor
  · intro read
    unfold Setting.ofLine? at read
    split at read
    · cases read
    · rename_i written
      obtain ⟨⟨before, after⟩, split, read⟩ := Option.bind_eq_some_iff.mp read
      obtain ⟨shape, first⟩ := Text.splitFirst_eq_some_iff.mp split
      refine ⟨_, _, .intro shape first ?_ rfl (unquotes_iff.mpr rfl), read⟩
      intro comment
      obtain ⟨rest, comment⟩ := List.head?_eq_some_iff.mp comment
      exact written rest comment
  · rintro ⟨key, value, ⟨shape, first, written, rfl, holds⟩, read⟩
    obtain rfl := unquotes_iff.mp holds
    have split := Text.splitFirst_eq_some_iff.mpr ⟨shape, first⟩
    unfold Setting.ofLine?
    split
    · rename_i rest comment
      exact absurd (congrArg List.head? comment) written
    · rw [split]
      exact read

/-! ### Keys -/

theorem indexAfter?_eq_some_iff {start : String} {key : List Char} {index : Nat} :
    indexAfter? start key = some index ↔ Indexes start index key ∧ index ≤ Numeral.max32 := by
  rw [indexAfter?, Option.bind_eq_some_iff]
  simp only [Text.after?_eq_some_iff, Numeral.bounded?_eq_some_iff]
  constructor
  · rintro ⟨digits, shape, something, all, value, within⟩
    exact ⟨⟨digits, shape, something, all, value⟩, within⟩
  · rintro ⟨⟨digits, shape, something, all, value⟩, within⟩
    exact ⟨digits, shape, something, all, value, within⟩

theorem signedBounded?_eq_some_iff {value : List Char} {count : Nat} :
    Numeral.signedBounded? Numeral.max32 value = some count ↔ Counts value count := by
  have unsigned {digits : List Char} {n : Nat} :
      Numeral.bounded? Numeral.max32 digits = some n ↔ _ := Numeral.bounded?_eq_some_iff
  unfold Numeral.signedBounded?
  split
  · rename_i digits
    rw [unsigned]
    constructor
    · rintro ⟨something, all, written, within⟩
      exact ⟨⟨digits, .inr rfl, something, all, written⟩, within⟩
    · rintro ⟨⟨others, bare | signed, something, all, written⟩, within⟩
      · -- A plus sign is no digit.
        subst bare
        exact absurd (all '+' List.mem_cons_self) (by decide)
      · cases signed
        exact ⟨something, all, written, within⟩
  · rename_i unsignedShape
    rw [unsigned]
    constructor
    · rintro ⟨something, all, written, within⟩
      exact ⟨⟨value, .inl rfl, something, all, written⟩, within⟩
    · rintro ⟨⟨others, rfl | signed, something, all, written⟩, within⟩
      · exact ⟨something, all, written, within⟩
      · exact absurd signed (unsignedShape others)

/-- The beginning of a key is all of it up to its first digit. -/
theorem Indexes.start_eq {start : String} {index : Nat} {key : List Char}
    (indexes : Indexes start index key)
    (plain : start.toList.all (fun c => !Numeral.isDigit c) = true) :
    key.takeWhile (fun c => !Numeral.isDigit c) = start.toList := by
  obtain ⟨digits, rfl, something, all, -⟩ := indexes.written
  rw [List.takeWhile_append_of_pos (List.all_eq_true.mp plain)]
  cases digits with
  | nil => exact absurd rfl something
  | cons c rest => simp [all c List.mem_cons_self]

/-- The beginnings of keys with an index. -/
def starts : List String := ["shader", "filter_linear", "scale_type", "scale"]

private theorem starts_plain :
    ∀ start ∈ starts, start.toList.all (fun c => !Numeral.isDigit c) = true := by
  decide

/-- A key with an index has one beginning. -/
theorem Indexes.start_unique {one other : String} {index another : Nat} {key : List Char}
    (indexes : Indexes one index key) (also : Indexes other another key) (known : one ∈ starts)
    (alsoKnown : other ∈ starts) : one = other :=
  String.toList_inj.mp ((indexes.start_eq (starts_plain one known)).symm.trans
    (also.start_eq (starts_plain other alsoKnown)))

/-- The key of the count is no key with an index. -/
theorem not_indexes_shaders {start : String} {index : Nat} (known : start ∈ starts) :
    ¬ Indexes start index "shaders".toList := by
  intro indexes
  have same := indexes.start_eq (starts_plain start known)
  have whole : "shaders".toList.takeWhile (fun c => !Numeral.isDigit c) = "shaders".toList := by
    decide
  rw [whole] at same
  obtain rfl := String.toList_inj.mp same
  exact absurd known (by decide)

/-- A key with one beginning has an index after no other, and is not the key of the count. -/
theorem Indexes.apart {start : String} {index : Nat} {key : List Char}
    (indexes : Indexes start index key) (known : start ∈ starts) :
    key ≠ "shaders".toList ∧ ∀ other ∈ starts, other ≠ start → indexAfter? other key = none := by
  constructor
  · rintro rfl
    exact not_indexes_shaders known indexes
  · intro other alsoKnown different
    cases found : indexAfter? other key with
    | none => rfl
    | some another =>
      have also := (indexAfter?_eq_some_iff.mp found).1
      exact absurd (also.start_unique indexes alsoKnown known) different

/-- What a key and its value set, kind by kind. -/
inductive Sets (key value : List Char) : Setting → Prop where
  | shaders {count : Nat} (named : key = "shaders".toList) (counts : Counts value count) :
    Sets key value (.shaders count)
  | path {index : Nat} (indexes : Indexes "shader" index key) (within : index ≤ Numeral.max32) :
    Sets key value (.path index (String.ofList value))
  | filterLinear {index : Nat} (indexes : Indexes "filter_linear" index key)
    (within : index ≤ Numeral.max32) :
    Sets key value (.filterLinear index (Text.lower value == "true".toList))
  | scaleType {index : Nat} (indexes : Indexes "scale_type" index key)
    (within : index ≤ Numeral.max32) : Sets key value (.scaleType index (String.ofList value))
  | scale {index : Nat} (indexes : Indexes "scale" index key) (within : index ≤ Numeral.max32) :
    Sets key value (.scale index ((Binary.ofText? .single value).getD defaultScale))

/-- The reader finds the setting that a key names, whichever beginnings it tries before. -/
theorem ofPair?_eq_some_iff {key value : List Char} {setting : Setting} :
    Setting.ofPair? key value = some setting ↔ Sets key value setting := by
  constructor
  · intro read
    unfold Setting.ofPair? at read
    split at read
    · obtain ⟨count, counted, rfl⟩ := Option.map_eq_some_iff.mp read
      exact .shaders ‹_› (signedBounded?_eq_some_iff.mp counted)
    split at read
    · obtain ⟨indexes, within⟩ := indexAfter?_eq_some_iff.mp ‹_›
      cases read
      exact .path indexes within
    split at read
    · obtain ⟨indexes, within⟩ := indexAfter?_eq_some_iff.mp ‹_›
      cases read
      exact .filterLinear indexes within
    split at read
    · obtain ⟨indexes, within⟩ := indexAfter?_eq_some_iff.mp ‹_›
      cases read
      exact .scaleType indexes within
    split at read
    · obtain ⟨indexes, within⟩ := indexAfter?_eq_some_iff.mp ‹_›
      cases read
      exact .scale indexes within
    · cases read
  · intro sets
    cases sets with
    | shaders named counts =>
      rw [Setting.ofPair?, if_pos named, signedBounded?_eq_some_iff.mpr counts]
      rfl
    | path indexes within =>
      have found := indexAfter?_eq_some_iff.mpr ⟨indexes, within⟩
      obtain ⟨named, -⟩ := indexes.apart (by decide)
      rw [Setting.ofPair?, if_neg named]
      simp only [found]
    | filterLinear indexes within =>
      have found := indexAfter?_eq_some_iff.mpr ⟨indexes, within⟩
      obtain ⟨named, others⟩ := indexes.apart (by decide)
      rw [Setting.ofPair?, if_neg named]
      simp only [others "shader" (by decide) (by decide), found]
    | scaleType indexes within =>
      have found := indexAfter?_eq_some_iff.mpr ⟨indexes, within⟩
      obtain ⟨named, others⟩ := indexes.apart (by decide)
      rw [Setting.ofPair?, if_neg named]
      simp only [others "shader" (by decide) (by decide),
        others "filter_linear" (by decide) (by decide), found]
    | scale indexes within =>
      have found := indexAfter?_eq_some_iff.mpr ⟨indexes, within⟩
      obtain ⟨named, others⟩ := indexes.apart (by decide)
      rw [Setting.ofPair?, if_neg named]
      simp only [others "shader" (by decide) (by decide),
        others "filter_linear" (by decide) (by decide),
        others "scale_type" (by decide) (by decide), found]

/-! ### Beginnings tried in turn -/

/-- What a key with an index begins with, its beginning begins with, unless there is a digit. -/
theorem Indexes.begins {one other : String} {index : Nat} {key : List Char}
    (indexes : Indexes other index key) (begins : one.toList <+: key)
    (plain : one.toList.all (fun c => !Numeral.isDigit c) = true) :
    one.toList <+: other.toList := by
  obtain ⟨digits, rfl, -, all, -⟩ := indexes.written
  rcases List.prefix_or_prefix_of_prefix begins (List.prefix_append other.toList digits) with
    shorter | ⟨rest, longer⟩
  · exact shorter
  · rw [← longer, List.prefix_append_right_inj] at begins
    cases rest with
    | nil =>
      rw [List.append_nil] at longer
      exact ⟨[], by rw [List.append_nil, longer]⟩
    | cons c rest =>
      have digit := all c (begins.subset List.mem_cons_self)
      have listed : c ∈ one.toList := by simp [← longer]
      have noDigit := List.all_eq_true.mp plain c listed
      rw [digit] at noDigit
      cases noDigit

/-- A key that begins in one way has no index after a beginning that does not begin so. -/
theorem indexAfter?_of_begins {one other : String} {key : List Char} (known : one ∈ starts)
    (begins : one.toList <+: key) (apart : ¬ one.toList <+: other.toList) :
    indexAfter? other key = none := by
  cases found : indexAfter? other key with
  | none => rfl
  | some index =>
    have indexes := (indexAfter?_eq_some_iff.mp found).1
    exact absurd (indexes.begins begins (starts_plain one known)) apart

/-- A key with an index begins with its beginning, and has no underscore after it. -/
theorem begins_of_indexAfter? {start : String} {key : List Char} {index : Nat}
    (found : indexAfter? start key = some index) :
    start.toList <+: key ∧ ('_' ∈ key → '_' ∈ start.toList) := by
  obtain ⟨digits, rfl, -, all, -⟩ := (indexAfter?_eq_some_iff.mp found).1.written
  refine ⟨List.prefix_append _ _, fun underscore => ?_⟩
  rcases List.mem_append.mp underscore with inStart | inDigits
  · exact inStart
  · exact absurd (all _ inDigits) (by decide)

/-- A key has no index after a beginning that it does not begin with. -/
theorem indexAfter?_of_lacks {start : String} {key : List Char}
    (lacks : ¬ start.toList <+: key) : indexAfter? start key = none := by
  cases found : indexAfter? start key with
  | none => rfl
  | some index => exact absurd (begins_of_indexAfter? found).1 lacks

/-- A key with an underscore has no index after a beginning without one. -/
theorem indexAfter?_of_guarded {start : String} {key : List Char} (bare : '_' ∉ start.toList)
    (refused : ¬ (start.toList <+: key ∧ '_' ∉ key)) : indexAfter? start key = none := by
  cases found : indexAfter? start key with
  | none => rfl
  | some index =>
    obtain ⟨begins, underscore⟩ := begins_of_indexAfter? found
    exact absurd ⟨begins, mt underscore bare⟩ refused

/-- To look for an index after one beginning after the other comes to asking first which of them the
key has: the first one decides, and if no index follows it the key sets nothing. What begins like a
path or a factor and has an underscore is neither. -/
theorem ofPair?_by_turns (key value : List Char) :
    Setting.ofPair? key value =
      if key = "shaders".toList then
        (Numeral.signedBounded? Numeral.max32 value).map .shaders
      else if "shader".toList <+: key ∧ '_' ∉ key then
        (indexAfter? "shader" key).map (.path · (String.ofList value))
      else if "filter_linear".toList <+: key then
        (indexAfter? "filter_linear" key).map
          (.filterLinear · (Text.lower value == "true".toList))
      else if "scale_type".toList <+: key then
        (indexAfter? "scale_type" key).map (.scaleType · (String.ofList value))
      else if "scale".toList <+: key ∧ '_' ∉ key then
        (indexAfter? "scale" key).map
          (.scale · ((Binary.ofText? .single value).getD defaultScale))
      else none := by
  rw [Setting.ofPair?]
  split
  · rfl
  by_cases path : "shader".toList <+: key ∧ '_' ∉ key
  · have others (other : String) : ¬ "shader".toList <+: other.toList →
        indexAfter? other key = none := indexAfter?_of_begins (by decide) path.1
    rw [if_pos path, others "filter_linear" (by decide), others "scale_type" (by decide),
      others "scale" (by decide)]
    cases indexAfter? "shader" key <;> rfl
  rw [if_neg path, indexAfter?_of_guarded (by decide) path]
  by_cases linear : "filter_linear".toList <+: key
  · have others (other : String) : ¬ "filter_linear".toList <+: other.toList →
        indexAfter? other key = none := indexAfter?_of_begins (by decide) linear
    rw [if_pos linear, others "scale_type" (by decide), others "scale" (by decide)]
    cases indexAfter? "filter_linear" key <;> rfl
  rw [if_neg linear, indexAfter?_of_lacks linear]
  by_cases scaled : "scale_type".toList <+: key
  · have noFactor : indexAfter? "scale" key = none :=
      indexAfter?_of_begins (by decide) scaled (by decide)
    rw [if_pos scaled, noFactor]
    cases indexAfter? "scale_type" key <;> rfl
  rw [if_neg scaled, indexAfter?_of_lacks scaled]
  by_cases factor : "scale".toList <+: key ∧ '_' ∉ key
  · rw [if_pos factor]
    cases indexAfter? "scale" key <;> rfl
  · rw [if_neg factor, indexAfter?_of_guarded (by decide) factor]

/-! ### Settings of one thing -/

/-- What the last setting says that says anything, else what there was, is what a view of a preset
shows after the settings. -/
theorem foldl_apply_view {β : Type} (view : Preset → Option β) {tells : Setting → Option β}
    (applies : ∀ preset setting, view (apply preset setting) = (tells setting).or (view preset))
    (settings : List Setting) (preset : Preset) :
    view (settings.foldl apply preset) = (settings.filterMap tells).getLast?.or (view preset) := by
  induction settings generalizing preset with
  | nil => simp
  | cons setting rest ih =>
    rw [List.foldl_cons, ih, applies, ← Option.or_assoc]
    congr 1
    cases said : tells setting with
    | none => rw [List.filterMap_cons_none said, Option.or_none]
    | some what =>
      rw [List.filterMap_cons_some said, List.getLast?_cons]
      cases (rest.filterMap tells).getLast? <;> rfl

/-- What the last line says that says anything. -/
theorem getLast?_filterMap_eq_some_iff {α β : Type} {tells : α → Option β} {lines : List α}
    {what : β} : (lines.filterMap tells).getLast? = some what ↔
      ∃ earlier line later, lines = earlier ++ line :: later ∧ tells line = some what ∧
        ∀ other ∈ later, tells other = none := by
  rw [List.getLast?_filterMap, List.findSome?_eq_some_iff]
  constructor
  · rintro ⟨later, line, earlier, backwards, said, silent⟩
    refine ⟨earlier.reverse, line, later.reverse, ?_, said, fun other member =>
      silent other (List.mem_reverse.mp member)⟩
    rw [← List.reverse_reverse lines, backwards]
    simp
  · rintro ⟨earlier, line, later, rfl, said, silent⟩
    exact ⟨later.reverse, line, earlier.reverse, by simp, said, fun other member =>
      silent other (List.mem_reverse.mp member)⟩

/-- If any of the lines says something, then one of them is the last that does. -/
theorem exists_lastSaid_iff {α : Type} {tells : List Char → α → Prop} {lines : List (List Char)} :
    (∃ what, LastSaid tells lines what) ↔ ∃ line ∈ lines, ∃ what, tells line what := by
  constructor
  · rintro ⟨what, earlier, line, later, rfl, said, -⟩
    exact ⟨line, by simp, what, said⟩
  · rintro ⟨line, member, what, said⟩
    induction lines generalizing line what with
    | nil => cases member
    | cons first rest ih =>
      by_cases afterwards : ∃ other ∈ rest, ∃ another, tells other another
      · obtain ⟨other, among, another, said⟩ := afterwards
        obtain ⟨what, earlier, last, later, rfl, said, silent⟩ := ih other among another said
        exact ⟨what, first :: earlier, last, later, rfl, said, silent⟩
      · have silent (other : List Char) (among : other ∈ rest) (another : α) :
            ¬ tells other another :=
          fun said => afterwards ⟨other, among, another, said⟩
        rcases List.mem_cons.mp member with rfl | among
        · exact ⟨what, [], line, rest, rfl, said, silent⟩
        · exact absurd said (silent line among what)

/-- What the settings of a text say last is what the last of its lines says. -/
theorem getLast?_settings_eq_some_iff {β : Type} {tells : Setting → Option β} {content : List Char}
    {what : β} : ((settings content).filterMap tells).getLast? = some what ↔
      LastSaid (fun line what => ∃ key value, Assigns line key value ∧
        ∃ setting, Sets key value setting ∧ tells setting = some what) (Text.lines content) what := by
  have lineTells (line : List Char) (what : β) :
      (Setting.ofLine? line).bind tells = some what ↔ ∃ key value, Assigns line key value ∧
        ∃ setting, Sets key value setting ∧ tells setting = some what := by
    simp only [Option.bind_eq_some_iff, ofLine?_eq_some_iff, ofPair?_eq_some_iff]
    constructor
    · rintro ⟨setting, ⟨key, value, assigns, sets⟩, said⟩
      exact ⟨key, value, assigns, setting, sets, said⟩
    · rintro ⟨key, value, assigns, setting, sets, said⟩
      exact ⟨setting, ⟨key, value, assigns, sets⟩, said⟩
  rw [settings, List.filterMap_filterMap, getLast?_filterMap_eq_some_iff]
  simp only [LastSaid, ← lineTells, Option.eq_none_iff_forall_ne_some, ne_eq]

/-- One of the four tables: how its keys begin, what becomes of a value, and which of the settings
are its own. -/
structure Column (α : Type) where
  start : String
  entry : List Char → α
  table : Preset → Table Nat α
  /-- The index and the entry of a setting of the table. -/
  own : Setting → Option (Nat × α)
  sets_iff {key value : List Char} {index : Nat} {held : α} :
    (∃ setting, Sets key value setting ∧ own setting = some (index, held)) ↔
      (Indexes start index key ∧ index ≤ Numeral.max32) ∧ held = entry value
  applies (preset : Preset) (setting : Setting) : table (apply preset setting) =
    match own setting with
    | some (index, held) => (table preset).insert index held
    | none => table preset
  begins : table {} = ∅

namespace Column

def paths : Column String where
  start := "shader"
  entry := String.ofList
  table := shaderPaths
  own
    | .path index text => some (index, text)
    | _ => none
  sets_iff {key value index held} := by
    constructor
    · rintro ⟨_, sets, own⟩
      cases sets <;> cases own
      exact ⟨⟨‹_›, ‹_›⟩, rfl⟩
    · rintro ⟨⟨indexes, within⟩, rfl⟩
      exact ⟨_, .path indexes within, rfl⟩
  applies preset setting := by cases setting <;> rfl
  begins := rfl

def filters : Column Bool where
  start := "filter_linear"
  entry value := Text.lower value == "true".toList
  table := filterLinear
  own
    | .filterLinear index enabled => some (index, enabled)
    | _ => none
  sets_iff {key value index held} := by
    constructor
    · rintro ⟨_, sets, own⟩
      cases sets <;> cases own
      exact ⟨⟨‹_›, ‹_›⟩, rfl⟩
    · rintro ⟨⟨indexes, within⟩, rfl⟩
      exact ⟨_, .filterLinear indexes within, rfl⟩
  applies preset setting := by cases setting <;> rfl
  begins := rfl

def scaleTypes : Column String where
  start := "scale_type"
  entry := String.ofList
  table := Preset.scaleTypes
  own
    | .scaleType index text => some (index, text)
    | _ => none
  sets_iff {key value index held} := by
    constructor
    · rintro ⟨_, sets, own⟩
      cases sets <;> cases own
      exact ⟨⟨‹_›, ‹_›⟩, rfl⟩
    · rintro ⟨⟨indexes, within⟩, rfl⟩
      exact ⟨_, .scaleType indexes within, rfl⟩
  applies preset setting := by cases setting <;> rfl
  begins := rfl

def scales : Column Binary where
  start := "scale"
  entry value := (Binary.ofText? .single value).getD defaultScale
  table := Preset.scales
  own
    | .scale index factor => some (index, factor)
    | _ => none
  sets_iff {key value index held} := by
    constructor
    · rintro ⟨_, sets, own⟩
      cases sets <;> cases own
      exact ⟨⟨‹_›, ‹_›⟩, rfl⟩
    · rintro ⟨⟨indexes, within⟩, rfl⟩
      exact ⟨_, .scale indexes within, rfl⟩
  applies preset setting := by cases setting <;> rfl
  begins := rfl

variable {α : Type}

/-- What a setting puts under an index of the table. -/
def tells (column : Column α) (index : Nat) (setting : Setting) : Option α :=
  (column.own setting).bind fun (other, held) => if index = other then some held else none

theorem tells_eq_some_iff {column : Column α} {index : Nat} {setting : Setting} {held : α} :
    column.tells index setting = some held ↔ column.own setting = some (index, held) := by
  rw [tells]
  cases column.own setting with
  | none => simp
  | some own => simp [Prod.ext_iff, eq_comm]

theorem get?_apply (column : Column α) (index : Nat) (preset : Preset) (setting : Setting) :
    (column.table (apply preset setting)).get? index =
      (column.tells index setting).or ((column.table preset).get? index) := by
  rw [column.applies, tells]
  split
  · rename_i other held own
    rw [own, Table.get?_insert]
    change _ = (if index = other then some held else none).or _
    split <;> rfl
  · rename_i foreign
    rw [foreign]
    rfl

theorem get?_eq_some_iff (column : Column α) (content : String) (index : Nat) (held : α) :
    (column.table (parse content)).get? index = some held ↔ index ≤ Numeral.max32 ∧
      LastSaid (fun line held => ∃ key value, Assigns line key value ∧
        Indexes column.start index key ∧ held = column.entry value)
        (Text.lines content.toList) held := by
  rw [parse, foldl_apply_view (fun preset => (column.table preset).get? index)
    (column.get?_apply index), column.begins, Table.get?_empty, Option.or_none,
    getLast?_settings_eq_some_iff]
  simp only [tells_eq_some_iff, column.sets_iff]
  constructor
  · rintro ⟨earlier, line, later, shape, ⟨key, value, assigns, ⟨indexes, within⟩, rfl⟩, silent⟩
    refine ⟨within, earlier, line, later, shape, ⟨key, value, assigns, indexes, rfl⟩, ?_⟩
    rintro other member another ⟨key, value, assigns, indexes, rfl⟩
    exact silent other member _ ⟨key, value, assigns, ⟨indexes, within⟩, rfl⟩
  · rintro ⟨within, earlier, line, later, shape, ⟨key, value, assigns, indexes, rfl⟩, silent⟩
    refine ⟨earlier, line, later, shape, ⟨key, value, assigns, ⟨indexes, within⟩, rfl⟩, ?_⟩
    rintro other member another ⟨key, value, assigns, ⟨indexes, -⟩, rfl⟩
    exact silent other member _ ⟨key, value, assigns, indexes, rfl⟩

theorem tabulates (column : Column α) (content : String) :
    Tabulates content column.start column.entry (column.table (parse content)) where
  last := column.get?_eq_some_iff content
  defined index := by
    rw [Option.isSome_iff_exists]
    simp only [column.get?_eq_some_iff, exists_and_left, exists_lastSaid_iff]
    constructor
    · rintro ⟨within, line, member, held, key, value, assigns, indexes, -⟩
      exact ⟨within, line, member, key, value, assigns, indexes⟩
    · rintro ⟨within, line, member, key, value, assigns, indexes⟩
      exact ⟨within, line, member, _, key, value, assigns, indexes, rfl⟩

end Column

/-- The count that a setting sets. -/
def Setting.count? : Setting → Option Nat
  | .shaders count => some count
  | _ => none

theorem getLast?_count_eq_some_iff {content : List Char} {count : Nat} :
    ((settings content).filterMap Setting.count?).getLast? = some count ↔
      LastSaid SaysCount (Text.lines content) count := by
  have sets_iff (key value : List Char) (count : Nat) :
      (∃ setting, Sets key value setting ∧ setting.count? = some count) ↔
        key = "shaders".toList ∧ Counts value count := by
    constructor
    · rintro ⟨_, sets, own⟩
      cases sets <;> cases own
      exact ⟨‹_›, ‹_›⟩
    · rintro ⟨named, counts⟩
      exact ⟨_, .shaders named counts, rfl⟩
  rw [getLast?_settings_eq_some_iff]
  simp only [sets_iff]
  rfl

theorem shaderCount_parse (content : String) : (parse content).shaderCount =
    ((settings content.toList).filterMap Setting.count?).getLast?.getD 0 := by
  have applies (preset : Preset) (setting : Setting) : some (apply preset setting).shaderCount =
      setting.count?.or (some preset.shaderCount) := by
    cases setting <;> rfl
  have shown := foldl_apply_view (fun preset => some preset.shaderCount) applies
    (settings content.toList) {}
  rw [parse, ← Option.some_inj, shown]
  cases ((settings content.toList).filterMap Setting.count?).getLast? <;> rfl

/-- A preset holds what its lines say, whatever else they say: each of the four tables under each
index what the last line says that names the table and the index, and the count what the last line
says that writes one. -/
theorem preset_reads_its_grammar (content : String) :
    Tabulates content "shader" String.ofList (parse content).shaderPaths ∧
      Tabulates content "filter_linear" (fun value => Text.lower value == "true".toList)
        (parse content).filterLinear ∧
      Tabulates content "scale_type" String.ofList (parse content).scaleTypes ∧
      Tabulates content "scale" (fun value => (Binary.ofText? .single value).getD Binary.one)
        (parse content).scales ∧
      ∀ count, (parse content).shaderCount = count ↔
        LastSaid SaysCount (Text.lines content.toList) count ∨
          count = 0 ∧ ∀ line ∈ Text.lines content.toList, ∀ other, ¬ SaysCount line other := by
  refine ⟨Column.paths.tabulates content, Column.filters.tabulates content,
    Column.scaleTypes.tabulates content, Column.scales.tabulates content, fun count => ?_⟩
  rw [shaderCount_parse, ← getLast?_count_eq_some_iff]
  cases last : ((settings content.toList).filterMap Setting.count?).getLast? with
  | some found =>
    have said := exists_lastSaid_iff.mp ⟨found, getLast?_count_eq_some_iff.mp last⟩
    simp only [Option.getD_some, Option.some_inj]
    refine ⟨.inl, ?_⟩
    rintro (same | ⟨-, silent⟩)
    · exact same
    · obtain ⟨line, member, other, tells⟩ := said
      exact absurd tells (silent line member other)
  | none =>
    have silent : ∀ line ∈ Text.lines content.toList, ∀ other, ¬ SaysCount line other := by
      intro line member other tells
      obtain ⟨found, lastSaid⟩ := exists_lastSaid_iff.mpr ⟨line, member, other, tells⟩
      rw [getLast?_count_eq_some_iff.mpr lastSaid] at last
      cases last
    simp only [Option.getD_none, reduceCtorEq, false_or]
    exact ⟨fun zero => ⟨zero.symm, silent⟩, fun both => both.1.symm⟩

example : (parse "shader0 = a\nshader_0 = b\nshader00 = \"c\"").shaderPaths.get? 0 = some "c" := by
  decide +kernel

end Overlay.Preset
