import Overlay.Text.Blank
import Overlay.Text.Line

/-! Texts by their lines. What a text says line by line is all that a reader of lines sees of it: it
is blank if each of its lines is, and a word without blanks occurs in it if it occurs in one of its
lines, since no line end falls inside a word. Taking the blanks from the end of each line and closing
each with a newline gives a text with just these lines. -/
namespace Overlay.Text

/-! ### Ends of lines -/

/-- A line loses blanks at its end and nothing else. -/
theorem trimEnd_append_blanks (line : List Char) :
    ∃ blanks, line = trimEnd line ++ blanks ∧ ∀ c ∈ blanks, isBlank c = true := by
  refine ⟨(line.reverse.takeWhile isBlank).reverse, ?_, ?_⟩
  · rw [trimEnd, ← List.reverse_append, List.takeWhile_append_dropWhile, List.reverse_reverse]
  · intro c member
    exact List.all_eq_true.mp List.all_takeWhile c (List.mem_reverse.mp member)

/-- Blanks at the end make no difference to what is left without them. -/
theorem trimEnd_append {blanks : List Char} (blank : ∀ c ∈ blanks, isBlank c = true)
    (line : List Char) : trimEnd (line ++ blanks) = trimEnd line := by
  have passed : ∀ c ∈ blanks.reverse, isBlank c = true := by
    intro c member
    exact blank c (List.mem_reverse.mp member)
  rw [trimEnd, List.reverse_append, List.dropWhile_append_of_pos passed, trimEnd]

@[simp] theorem trimEnd_trimEnd (line : List Char) : trimEnd (trimEnd line) = trimEnd line := by
  obtain ⟨blanks, shape, blank⟩ := trimEnd_append_blanks line
  conv => rhs; rw [shape, trimEnd_append blank]

/-- Without the blanks at its end a line does not end in a blank. -/
theorem getLast?_trimEnd {line : List Char} {c : Char} (last : (trimEnd line).getLast? = some c) :
    isBlank c = false := by
  have first := List.head?_dropWhile_not isBlank line.reverse
  rw [trimEnd, List.getLast?_reverse] at last
  rw [last] at first
  simpa using first

/-- Without the blanks at its end a line does not end in a carriage return. -/
theorem trimEnd_head_ne (line rest : List Char) : (trimEnd line).reverse ≠ '\r' :: rest := by
  intro same
  have first := List.head?_dropWhile_not isBlank line.reverse
  rw [trimEnd, List.reverse_reverse] at same
  rw [same] at first
  cases first

/-- A line loses the carriage return before its newline and nothing else. -/
theorem eq_closeLine (line : List Char) :
    line = closeLine line.reverse ∨ line = closeLine line.reverse ++ ['\r'] := by
  unfold closeLine
  split
  · rename_i rest shape
    rw [← List.reverse_cons, ← shape, List.reverse_reverse]
    exact .inr rfl
  · exact .inl (List.reverse_reverse line).symm

theorem closeLine_of_head_ne {line : List Char} (plain : ∀ rest, line ≠ '\r' :: rest) :
    closeLine line = line.reverse := by
  unfold closeLine
  split
  · exact absurd rfl (plain _)
  · rfl

/-- The carriage return before a newline is blank, so without the blanks at the end of the line it
makes no difference to which of the two it belongs. -/
@[simp] theorem trimEnd_closeLine (line : List Char) :
    trimEnd (closeLine line.reverse) = trimEnd line := by
  rcases eq_closeLine line with same | same
  · rw [← same]
  · conv => rhs; rw [same, trimEnd_append (List.forall_mem_singleton.mpr rfl)]

/-- A line is read up to its newline. -/
theorem linesFrom_append {line : List Char} (unbroken : '\n' ∉ line) (done rest : List Char) :
    linesFrom done (line ++ '\n' :: rest) = closeLine (line.reverse ++ done) :: linesFrom [] rest := by
  induction line generalizing done with
  | nil => rfl
  | cons c line ih =>
    have different : c ≠ '\n' := fun same => unbroken (same ▸ List.mem_cons_self)
    have shorter : '\n' ∉ line := fun member => unbroken (List.mem_cons_of_mem _ member)
    rw [List.cons_append, linesFrom, ih shorter, List.reverse_cons, List.append_assoc]
    · rfl
    · exact different

/-! ### Both ends of a text -/

/-- Blanks at both ends make no difference to what is left without them. -/
theorem trim_append {before after : List Char} (first : ∀ c ∈ before, isBlank c = true)
    (last : ∀ c ∈ after, isBlank c = true) (word : List Char) :
    trim (before ++ word ++ after) = trim word := by
  have passed : trimStart (before ++ word ++ after) = trimStart (word ++ after) := by
    rw [List.append_assoc]
    exact List.dropWhile_append_of_pos first
  have nothing : trimStart after = [] := by
    rw [trimStart, ← List.append_nil after, List.dropWhile_append_of_pos last]
    rfl
  rw [trim, trim, passed, trimStart, List.dropWhile_append, ← trimStart, ← trimStart]
  split
  · rename_i blank
    rw [List.isEmpty_iff.mp blank, nothing]
  · exact trimEnd_append last _

/-- A text loses blanks at both ends and nothing else. -/
theorem trim_append_blanks (cs : List Char) : ∃ before after, cs = before ++ trim cs ++ after ∧
    (∀ c ∈ before, isBlank c = true) ∧ ∀ c ∈ after, isBlank c = true := by
  obtain ⟨after, shape, blank⟩ := trimEnd_append_blanks (trimStart cs)
  refine ⟨cs.takeWhile isBlank, after, ?_, List.all_eq_true.mp List.all_takeWhile, blank⟩
  rw [List.append_assoc, trim, ← shape, trimStart, List.takeWhile_append_dropWhile]

/-- What shows in ASCII is not blank. -/
theorem isBlank_of_visible {c : Char} (low : 0x21 ≤ c.toNat) (high : c.toNat ≤ 0x7E) :
    isBlank c = false := by
  simp only [isBlank, Bool.or_eq_false_iff, Bool.and_eq_false_iff, decide_eq_false_iff_not,
    beq_eq_false_iff_ne, ne_eq]
  omega

/-- A letter is not blank, and so it is not when it is made small. -/
theorem isBlank_toLower (c : Char) : isBlank c.toLower = isBlank c := by
  by_cases capital : c.val ≥ 'A'.val ∧ c.val ≤ 'Z'.val
  · have bounds : 0x41 ≤ c.toNat ∧ c.toNat ≤ 0x5A := capital
    have small : c.toLower.toNat = c.toNat + 0x20 := by
      have lowered : c.toLower.val = c.val + 0x20 := congrArg Char.val (dif_pos capital)
      change c.toLower.val.toNat = _
      rw [lowered, UInt32.toNat_add]
      change (c.toNat + 0x20) % 2 ^ 32 = _
      omega
    rw [isBlank_of_visible (by omega) (by omega), isBlank_of_visible (by omega) (by omega)]
  · have same : c.toLower = c := dif_neg capital
    rw [same]

/-- Making letters small changes nothing about blanks, so it may come before trimming as well. -/
theorem trim_lower (cs : List Char) : trim (lower cs) = lower (trim cs) := by
  have blind : isBlank ∘ Char.toLower = isBlank := funext isBlank_toLower
  simp only [trim, trimEnd, trimStart, lower, List.dropWhile_map, ← List.map_reverse, blind]

/-! ### One line after the other -/

/-- What holds of texts without a newline, and of a closed line before a text of which it holds, holds
of every text. -/
@[elab_as_elim] theorem byLines {holds : List Char → Prop}
    (last : ∀ line, '\n' ∉ line → holds line)
    (closed : ∀ line rest, '\n' ∉ line → holds rest → holds (line ++ '\n' :: rest))
    (cs : List Char) : holds cs := by
  by_cases newline : '\n' ∈ cs
  · obtain ⟨line, rest, split, unbroken⟩ := List.eq_append_cons_of_mem newline
    have shorter : rest.length < cs.length := by
      rw [split, List.length_append, List.length_cons]
      omega
    rw [split]
    exact closed line rest unbroken (byLines last closed rest)
  · exact last cs newline
termination_by cs.length

theorem lines_append {line : List Char} (unbroken : '\n' ∉ line) (rest : List Char) :
    lines (line ++ '\n' :: rest) = closeLine line.reverse :: lines rest := by
  rw [lines, linesFrom_append unbroken, List.append_nil, lines]

private theorem linesFrom_unbroken {line : List Char} (unbroken : '\n' ∉ line) (done : List Char) :
    linesFrom done line = if done.isEmpty ∧ line = [] then [] else [done.reverse ++ line] := by
  induction line generalizing done with
  | nil => simp [linesFrom]
  | cons c rest ih =>
    rw [List.mem_cons, not_or] at unbroken
    rw [linesFrom, ih unbroken.2]
    · simp
    · exact Ne.symm unbroken.1

/-- What follows the last newline is a line unless it is empty. -/
theorem lines_unbroken {line : List Char} (unbroken : '\n' ∉ line) :
    lines line = if line = [] then [] else [line] := by
  rw [lines, linesFrom_unbroken unbroken]
  simp

/-- No line holds a newline. -/
theorem newline_not_mem_of_mem_lines {cs line : List Char} (member : line ∈ lines cs) :
    '\n' ∉ line := by
  induction cs using byLines with
  | last text unbroken =>
    rw [lines_unbroken unbroken] at member
    split at member
    · cases member
    · rwa [List.mem_singleton.mp member]
  | closed text rest unbroken ih =>
    rw [lines_append unbroken] at member
    rcases List.mem_cons.mp member with rfl | later
    · intro inside
      apply unbroken
      rcases eq_closeLine text with same | same
      · rwa [same]
      · rw [same]
        exact List.mem_append_left _ inside
    · exact ih later

/-- Lines that are closed one by one are read again as they are. -/
theorem lines_closed {pieces : List (List Char)}
    (unbroken : ∀ line ∈ pieces, '\n' ∉ line)
    (plain : ∀ line ∈ pieces, ∀ rest, line.reverse ≠ '\r' :: rest) :
    lines (pieces.flatMap fun line => line ++ ['\n']) = pieces := by
  unfold lines
  induction pieces with
  | nil => rfl
  | cons line pieces ih =>
    rw [List.forall_mem_cons] at unbroken plain
    rw [List.flatMap_cons, List.append_assoc, List.singleton_append, linesFrom_append unbroken.1,
      ih unbroken.2 plain.2, List.append_nil, closeLine_of_head_ne plain.1, List.reverse_reverse]

/-- The lines of a normalised text are those of the text, each without the blanks at its end. -/
theorem lines_trimmed (cs : List Char) :
    lines ((lines cs).flatMap fun line => trimEnd line ++ ['\n']) = (lines cs).map trimEnd := by
  rw [← List.flatMap_map trimEnd fun line => line ++ ['\n']]
  refine lines_closed ?_ ?_
  · intro line member inside
    obtain ⟨source, listed, rfl⟩ := List.mem_map.mp member
    obtain ⟨blanks, shape, -⟩ := trimEnd_append_blanks source
    refine newline_not_mem_of_mem_lines listed ?_
    rw [shape]
    exact List.mem_append_left _ inside
  · intro line member rest
    obtain ⟨source, -, rfl⟩ := List.mem_map.mp member
    exact trimEnd_head_ne source rest

/-! ### Blank texts -/

theorem allBlank_trimEnd (line : List Char) : allBlank (trimEnd line) = allBlank line := by
  obtain ⟨blanks, shape, blank⟩ := trimEnd_append_blanks line
  have rest : blanks.all isBlank = true := List.all_eq_true.mpr blank
  unfold allBlank
  conv => rhs; rw [shape, List.all_append, rest, Bool.and_true]

/-- A text is blank if each of its lines is. -/
theorem allBlank_eq_lines (cs : List Char) : allBlank cs = (lines cs).all allBlank := by
  induction cs using byLines with
  | last line unbroken =>
    rw [lines_unbroken unbroken]
    split
    · subst line
      rfl
    · simp
  | closed line rest unbroken ih =>
    have newline : isBlank '\n' = true := rfl
    have kept : allBlank (closeLine line.reverse) = allBlank line := by
      rw [← allBlank_trimEnd, trimEnd_closeLine, allBlank_trimEnd]
    rw [lines_append unbroken, List.all_cons, ← ih, kept]
    simp [allBlank, newline]

/-! ### Words -/

/-- A text with something in it and no blanks. -/
structure Word (word : List Char) : Prop where
  something : word ≠ []
  solid : ∀ c ∈ word, isBlank c = false

theorem Word.not_mem {word : List Char} (isWord : Word word) {c : Char} (blank : isBlank c = true) :
    c ∉ word := by
  intro member
  rw [isWord.solid c member] at blank
  cases blank

/-- A text with a word in it is not blank. -/
theorem Word.not_allBlank {word cs : List Char} (isWord : Word word) (occurs : word <:+: cs) :
    allBlank cs = false := by
  obtain ⟨first, tail, rfl⟩ := List.exists_cons_of_ne_nil isWord.something
  rw [Bool.eq_false_iff]
  intro blank
  have firstBlank := List.all_eq_true.mp blank first (occurs.subset List.mem_cons_self)
  exact isWord.not_mem firstBlank List.mem_cons_self

/-- Trimming takes nothing from a word. -/
theorem Word.trim_eq {word : List Char} (isWord : Word word) : trim word = word := by
  have untouched {cs : List Char} (solid : ∀ c ∈ cs, isBlank c = false) :
      cs.dropWhile isBlank = cs := by
    cases cs with
    | nil => rfl
    | cons c rest => exact List.dropWhile_cons_of_neg (by simp [solid c List.mem_cons_self])
  rw [trim, trimStart, untouched isWord.solid, trimEnd, untouched, List.reverse_reverse]
  exact fun c member => isWord.solid c (List.mem_reverse.mp member)

/-- What has no separator occurs on one side of it. -/
theorem infix_append_cons {word : List Char} {mark : Char} (absent : mark ∉ word)
    (before after : List Char) :
    word <:+: before ++ mark :: after ↔ word <:+: before ∨ word <:+: after := by
  have starts {part : List Char} (part_absent : mark ∉ part) (start : part <+: mark :: after) :
      part = [] := by
    rcases List.prefix_cons_iff.mp start with empty | ⟨rest, rfl, -⟩
    · exact empty
    · exact absurd List.mem_cons_self part_absent
  constructor
  · intro occurs
    rcases List.infix_append_iff.mp occurs with left | right | ⟨ending, start, rfl, isEnding, isStart⟩
    · exact .inl left
    · rcases List.infix_cons_iff.mp right with isStart | right
      · rw [starts absent isStart]
        exact .inl (List.nil_infix)
      · exact .inr right
    · rw [List.mem_append, not_or] at absent
      rw [starts absent.2 isStart, List.append_nil]
      exact .inl isEnding.isInfix
  · rintro (left | right)
    · exact left.trans (List.prefix_append _ _).isInfix
    · exact right.trans ((List.suffix_cons _ _).trans (List.suffix_append _ _)).isInfix

/-- A word occurs in no blanks, so blanks at an end make no difference to it. -/
theorem Word.infix_append_blanks {word blanks : List Char} (isWord : Word word)
    (blank : ∀ c ∈ blanks, isBlank c = true) (line : List Char) :
    word <:+: line ++ blanks ↔ word <:+: line := by
  cases blanks with
  | nil => rw [List.append_nil]
  | cons c rest =>
    rw [infix_append_cons (isWord.not_mem (blank c List.mem_cons_self))]
    refine or_iff_left ?_
    intro inside
    obtain ⟨first, tail, rfl⟩ := List.exists_cons_of_ne_nil isWord.something
    have firstBlank := blank first (List.mem_cons_of_mem _ (inside.subset List.mem_cons_self))
    exact isWord.not_mem firstBlank List.mem_cons_self

theorem Word.infix_trimEnd {word : List Char} (isWord : Word word) (line : List Char) :
    word <:+: trimEnd line ↔ word <:+: line := by
  obtain ⟨blanks, shape, blank⟩ := trimEnd_append_blanks line
  conv => rhs; rw [shape]
  exact (isWord.infix_append_blanks blank _).symm

/-- A word occurs in a text if it occurs in one of its lines. -/
theorem Word.infix_iff_lines {word : List Char} (isWord : Word word) (cs : List Char) :
    word <:+: cs ↔ ∃ line ∈ lines cs, word <:+: line := by
  induction cs using byLines with
  | last line unbroken =>
    rw [lines_unbroken unbroken]
    split
    · subst line
      simp [isWord.something]
    · simp
  | closed line rest unbroken ih =>
    have absent : '\n' ∉ word := isWord.not_mem rfl
    have kept : word <:+: closeLine line.reverse ↔ word <:+: line := by
      rw [← isWord.infix_trimEnd, trimEnd_closeLine, isWord.infix_trimEnd]
    rw [lines_append unbroken, infix_append_cons absent, ih]
    simp only [List.mem_cons, exists_eq_or_imp, kept]

/-! ### Parts of a text -/

theorem after?_eq_some_iff {start cs rest : List Char} :
    after? start cs = some rest ↔ cs = start ++ rest := by
  induction start generalizing cs with
  | nil => simp [after?]
  | cons a start ih =>
    cases cs with
    | nil => simp [after?]
    | cons c cs =>
      by_cases same : a = c
      · simp [after?, same, ih]
      · simp [after?, same, Ne.symm same]

theorem before?_eq_some_iff {ending cs rest : List Char} :
    before? ending cs = some rest ↔ cs = rest ++ ending := by
  rw [before?, Option.map_eq_some_iff]
  constructor
  · rintro ⟨backwards, found, rfl⟩
    rw [← List.reverse_reverse cs, after?_eq_some_iff.mp found, List.reverse_append,
      List.reverse_reverse]
  · rintro rfl
    exact ⟨rest.reverse, after?_eq_some_iff.mpr List.reverse_append, List.reverse_reverse rest⟩

/-- A text is split at the first occurrence of a mark and nowhere else. -/
theorem splitFirst_eq_some_iff {mark : Char} {cs before after : List Char} :
    splitFirst mark cs = some (before, after) ↔ cs = before ++ mark :: after ∧ mark ∉ before := by
  unfold splitFirst
  constructor
  · intro split
    have whole := List.takeWhile_append_dropWhile (p := (· ≠ mark)) (l := cs)
    cases found : cs.dropWhile (· ≠ mark) with
    | nil =>
      rw [found] at split
      cases split
    | cons c rest =>
      rw [found] at split
      cases split
      have first := List.head?_dropWhile_not (· ≠ mark) cs
      rw [found] at first
      have same : c = mark := by simpa using first
      rw [found, same] at whole
      refine ⟨whole.symm, fun member => ?_⟩
      exact absurd (List.all_eq_true.mp List.all_takeWhile mark member) (by simp)
  · rintro ⟨rfl, first⟩
    have passed : ∀ c ∈ before, decide (c ≠ mark) = true := by
      intro c member
      exact decide_eq_true fun same => first (same ▸ member)
    rw [List.dropWhile_append_of_pos passed, List.takeWhile_append_of_pos passed]
    simp

theorem after?_isSome_iff (start cs : List Char) :
    (after? start cs).isSome = true ↔ start <+: cs := by
  rw [Option.isSome_iff_exists]
  exact exists_congr fun rest => after?_eq_some_iff.trans eq_comm

/-- Occurring is being a contiguous part. -/
theorem occurs_iff (needle cs : List Char) : occurs needle cs = true ↔ needle <:+: cs := by
  induction cs with
  | nil => simp [occurs]
  | cons c rest ih =>
    rw [occurs, Bool.or_eq_true, after?_isSome_iff, ih, List.infix_cons_iff]

end Overlay.Text
