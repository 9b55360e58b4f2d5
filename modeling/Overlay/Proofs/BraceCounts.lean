import Overlay.Proofs.StructuralCheck

/-! The structural check by counts over the whole text. The check goes through a text line by line
with one depth and stops at the first closing brace that closes nothing; what it says is fixed by how
many braces each beginning of the text opens and closes, and a line is numbered by the newlines
before it. No line end is a brace, so it makes no difference to the depth where lines are cut and
whether a carriage return belongs to a line or to its end. -/
namespace Overlay.Gpu
open Text

/-- How many braces a text opens. -/
def opened (cs : List Char) : Nat := cs.count '\x7b'

/-- How many braces a text closes. -/
def closed (cs : List Char) : Nat := cs.count '\x7d'

/-- No beginning of the text closes more braces than it opens. -/
def ClosesNoneTooMany (cs : List Char) : Prop :=
  ∀ before, before <+: cs → closed before ≤ opened before

/-- Every brace that is opened is closed, in order. -/
structure Balanced (cs : List Char) : Prop where
  inOrder : ClosesNoneTooMany cs
  total : closed cs = opened cs

/-- The text gets past the first two checks: it is not blank, and names the entry point. -/
structure Entered (cs : List Char) : Prop where
  something : ∃ c ∈ cs, isBlank c = false
  entry : "main".toList <:+: cs

/-- The verdicts on a text, in the order of the checks. -/
inductive Judged (cs : List Char) : Except StructureFault Unit → Prop where
  | empty (blank : ∀ c ∈ cs, isBlank c = true) : Judged cs (.error .empty)
  | noMain (something : ∃ c ∈ cs, isBlank c = false) (lacks : ¬ "main".toList <:+: cs) :
    Judged cs (.error .noMain)
  /-- Up to some closing brace the braces balance; its line is named. -/
  | unexpectedClose (entered : Entered cs) {before after : List Char}
      (split : cs = before ++ '\x7d' :: after) (balanced : Balanced before) :
    Judged cs (.error (.unexpectedClose (1 + before.count '\n')))
  | unclosed (entered : Entered cs) (inOrder : ClosesNoneTooMany cs) {excess : Nat}
      (some : excess ≠ 0) (total : opened cs = closed cs + excess) :
    Judged cs (.error (.unclosed excess))
  | passes (entered : Entered cs) (balanced : Balanced cs) : Judged cs (.ok ())

/-! ### Depths by counts -/

@[simp] theorem opened_nil : opened [] = 0 := rfl

@[simp] theorem closed_nil : closed [] = 0 := rfl

theorem opened_cons (c : Char) (rest : List Char) :
    opened (c :: rest) = if c = '\x7b' then opened rest + 1 else opened rest := by
  unfold opened
  split <;> simp [*]

theorem closed_cons (c : Char) (rest : List Char) :
    closed (c :: rest) = if c = '\x7d' then closed rest + 1 else closed rest := by
  unfold closed
  split <;> simp [*]

theorem forall_prefix_cons_iff {holds : List Char → Prop} (c : Char) (rest : List Char) :
    (∀ before, before <+: c :: rest → holds before) ↔
      holds [] ∧ ∀ before, before <+: rest → holds (c :: before) := by
  constructor
  · intro each
    exact ⟨each [] List.nil_prefix, fun before start => each _ ((List.prefix_cons_inj c).mpr start)⟩
  · rintro ⟨none, later⟩ before start
    rcases List.prefix_cons_iff.mp start with rfl | ⟨tail, rfl, shorter⟩
    · exact none
    · exact later tail shorter

/-- The depth after a text is what it opens beyond what it closes, if no beginning of it closes too
many. -/
theorem depthAfter?_eq_some_iff {start depth : Nat} {cs : List Char} :
    depthAfter? start cs = some depth ↔
      (∀ before, before <+: cs → closed before ≤ start + opened before) ∧
        depth + closed cs = start + opened cs := by
  fun_induction depthAfter? start cs generalizing depth with
  | case1 start => simp [eq_comm]
  | case2 start rest ih =>
    rw [ih, forall_prefix_cons_iff, closed_nil, and_iff_right (Nat.zero_le _)]
    refine and_congr (forall₂_congr fun before _ => ?_) ?_
    · simp only [opened_cons, closed_cons, Char.reduceEq, ↓reduceIte]
      omega
    · simp only [opened_cons, closed_cons, Char.reduceEq, ↓reduceIte]
      omega
  | case3 rest notOpen =>
    have stray : ¬ closed ['\x7d'] ≤ 0 + opened ['\x7d'] := by decide
    simp only [reduceCtorEq, false_iff, forall_prefix_cons_iff]
    rintro ⟨⟨-, later⟩, -⟩
    exact stray (later [] List.nil_prefix)
  | case4 rest start notOpen ih =>
    rw [ih, forall_prefix_cons_iff, closed_nil, and_iff_right (Nat.zero_le _)]
    refine and_congr (forall₂_congr fun before _ => ?_) ?_
    · simp only [opened_cons, closed_cons, Char.reduceEq, ↓reduceIte]
      omega
    · simp only [opened_cons, closed_cons, Char.reduceEq, ↓reduceIte]
      omega
  | case5 start c rest notOpen notClose ih =>
    rw [ih, forall_prefix_cons_iff, closed_nil, and_iff_right (Nat.zero_le _)]
    simp only [opened_cons, closed_cons, notOpen, notClose, ↓reduceIte]

/-- A text that closes too many has a first brace that does, and up to it everything is closed. -/
theorem exists_stray {start : Nat} {cs : List Char} (closes : depthAfter? start cs = none) :
    ∃ before after, cs = before ++ '\x7d' :: after ∧ depthAfter? start before = some 0 := by
  fun_induction depthAfter? start cs with
  | case1 start => cases closes
  | case2 start rest ih =>
    obtain ⟨before, after, rfl, level⟩ := ih closes
    exact ⟨'\x7b' :: before, after, rfl, by simpa [depthAfter?] using level⟩
  | case3 rest notOpen => exact ⟨[], rest, rfl, rfl⟩
  | case4 rest start notOpen ih =>
    obtain ⟨before, after, rfl, level⟩ := ih closes
    exact ⟨'\x7d' :: before, after, rfl, by simpa [depthAfter?] using level⟩
  | case5 start c rest notOpen notClose ih =>
    obtain ⟨before, after, rfl, level⟩ := ih closes
    exact ⟨c :: before, after, rfl, by simpa [depthAfter?, notOpen, notClose] using level⟩

theorem depthAfter?_stray {start : Nat} {before : List Char}
    (level : depthAfter? start before = some 0) (after : List Char) :
    depthAfter? start (before ++ '\x7d' :: after) = none := by
  rw [depthAfter?_append, level]
  rfl

theorem balanced_iff (cs : List Char) : Balanced cs ↔ depthAfter? 0 cs = some 0 := by
  rw [depthAfter?_eq_some_iff]
  simp only [Nat.zero_add]
  exact ⟨fun ⟨inOrder, total⟩ => ⟨inOrder, total⟩, fun ⟨inOrder, total⟩ => ⟨inOrder, total⟩⟩

/-! ### Lines against the whole text -/

/-- The carriage return of a line end is no brace. -/
@[simp] theorem depthAfter?_closeLine (depth : Nat) (line : List Char) :
    depthAfter? depth (closeLine line.reverse) = depthAfter? depth line := by
  rw [← depthAfter?_trimEnd, trimEnd_closeLine, depthAfter?_trimEnd]

/-- When nothing is closed too many, the braces left open are all that the lines can be blamed for. -/
theorem checkLines_of_some {cs : List Char} (line : Nat) {depth left : Nat}
    (level : depthAfter? depth cs = some left) :
    checkLines line depth (lines cs) = if left = 0 then .ok () else .error (.unclosed left) := by
  induction cs using byLines generalizing line depth with
  | last text unbroken =>
    rw [lines_unbroken unbroken]
    split
    · subst text
      cases level
      rfl
    · rw [checkLines, level]
      rfl
  | closed text rest unbroken ih =>
    rw [depthAfter?_append] at level
    obtain ⟨between, first, second⟩ := Option.bind_eq_some_iff.mp level
    rw [lines_append unbroken, checkLines, depthAfter?_closeLine, first]
    exact ih (line + 1) second

/-- A brace closed too many is blamed on its line: the first one and one more for every newline before
it. -/
theorem checkLines_of_stray {before after : List Char} (line : Nat) {depth : Nat}
    (level : depthAfter? depth before = some 0) :
    checkLines line depth (lines (before ++ '\x7d' :: after)) =
      .error (.unexpectedClose (line + before.count '\n')) := by
  induction before using byLines generalizing line depth with
  | last text unbroken =>
    rw [List.count_eq_zero.mpr unbroken]
    by_cases newline : '\n' ∈ after
    · obtain ⟨tail, rest, rfl, tailUnbroken⟩ := List.eq_append_cons_of_mem newline
      have lineUnbroken : '\n' ∉ text ++ '\x7d' :: tail := by simp [unbroken, tailUnbroken]
      rw [← List.cons_append, ← List.append_assoc, lines_append lineUnbroken, checkLines,
        depthAfter?_closeLine, depthAfter?_stray level]
      rfl
    · have lineUnbroken : '\n' ∉ text ++ '\x7d' :: after := by simp [unbroken, newline]
      rw [lines_unbroken lineUnbroken, if_neg (by simp), checkLines, depthAfter?_stray level]
      rfl
  | closed text rest unbroken ih =>
    rw [depthAfter?_append] at level
    obtain ⟨between, first, second⟩ := Option.bind_eq_some_iff.mp level
    rw [List.append_assoc, List.cons_append, lines_append unbroken, checkLines,
      depthAfter?_closeLine, first]
    refine (ih (line + 1) second).trans ?_
    rw [List.count_append, List.count_cons_self, List.count_eq_zero.mpr unbroken, Nat.zero_add,
      Nat.add_assoc, Nat.add_comm 1]

/-! ### The verdict -/

theorem allBlank_eq_true_iff (cs : List Char) :
    allBlank cs = true ↔ ∀ c ∈ cs, isBlank c = true := List.all_eq_true

theorem allBlank_eq_false_iff (cs : List Char) :
    allBlank cs = false ↔ ∃ c ∈ cs, isBlank c = false := by
  simp [allBlank]

/-- A text that is not blank and names the entry point is judged by its braces. -/
theorem checkStructure_of_entered {source : String} (entered : Entered source.toList) :
    checkStructure source = checkLines 1 0 (lines source.toList) := by
  have something := (allBlank_eq_false_iff _).mpr entered.something
  have entry := (occurs_iff _ _).mpr entered.entry
  simp only [checkStructure, something, entry, Bool.not_true, Bool.false_eq_true, ↓reduceIte]

theorem checkStructure_of_judged {source : String} {verdict : Except StructureFault Unit}
    (judged : Judged source.toList verdict) : checkStructure source = verdict := by
  cases judged with
  | empty blank =>
    have blank := (allBlank_eq_true_iff _).mpr blank
    simp only [checkStructure, blank, ↓reduceIte]
  | noMain something lacks =>
    have something := (allBlank_eq_false_iff _).mpr something
    have lacks : occurs "main".toList source.toList = false := by
      rw [← Bool.not_eq_true, occurs_iff]
      exact lacks
    simp only [checkStructure, something, lacks, Bool.not_false, Bool.false_eq_true, ↓reduceIte]
  | unexpectedClose entered split balanced =>
    rw [checkStructure_of_entered entered, split]
    exact checkLines_of_stray 1 ((balanced_iff _).mp balanced)
  | @unclosed entered inOrder excess some total =>
    have level : depthAfter? 0 source.toList = Option.some excess := by
      rw [depthAfter?_eq_some_iff]
      simp only [Nat.zero_add]
      exact ⟨inOrder, by omega⟩
    rw [checkStructure_of_entered entered, checkLines_of_some 1 level, if_neg some]
  | passes entered balanced =>
    rw [checkStructure_of_entered entered, checkLines_of_some 1 ((balanced_iff _).mp balanced),
      if_pos rfl]

/-- Every text gets a verdict. -/
theorem exists_judged (cs : List Char) : ∃ verdict, Judged cs verdict := by
  cases blank : allBlank cs with
  | true => exact ⟨_, .empty ((allBlank_eq_true_iff _).mp blank)⟩
  | false =>
    have something := (allBlank_eq_false_iff _).mp blank
    by_cases entry : "main".toList <:+: cs
    · have entered : Entered cs := ⟨something, entry⟩
      cases level : depthAfter? 0 cs with
      | none =>
        obtain ⟨before, after, split, balanced⟩ := exists_stray level
        exact ⟨_, .unexpectedClose entered split ((balanced_iff _).mpr balanced)⟩
      | some left =>
        obtain ⟨inOrder, total⟩ := depthAfter?_eq_some_iff.mp level
        simp only [Nat.zero_add] at inOrder total
        by_cases none : left = 0
        · exact ⟨_, .passes entered ⟨inOrder, by omega⟩⟩
        · exact ⟨_, .unclosed entered inOrder none (by omega)⟩
    · exact ⟨_, .noMain something entry⟩

/-- The check says of a text what its counts say: it is blank; or it has something in it but no entry
point; or it has both, and some closing brace comes after a beginning that balances, in the line with
that number; or none does and this many braces stay open; or all is well, and then the text is not
blank, names the entry point and balances. -/
theorem check_is_by_counts (source : String) (verdict : Except StructureFault Unit) :
    checkStructure source = verdict ↔ Judged source.toList verdict := by
  constructor
  · rintro rfl
    obtain ⟨verdict, judged⟩ := exists_judged source.toList
    rw [checkStructure_of_judged judged]
    exact judged
  · exact checkStructure_of_judged

/-- A carriage return alone ends no line, and an empty line counts. -/
example : checkStructure "main \x7b\r\x7d\r\n\n\x7d" = .error (.unexpectedClose 3) := rfl

end Overlay.Gpu
