import Overlay.Builtin
import Overlay.Compiler
import Overlay.Gpu
import Overlay.Proofs.Lines

/-! The structural check sees a text line by line: whether some line has something in it, whether the
entry point stands in one, and how the braces of each line go. None of the three sees blanks at the
end of a line, so normalising a text is invisible to the check, down to the line that a fault names.
The texts that ship with the program pass. -/
namespace Overlay
open Text

namespace Gpu

/-! ### Braces and blanks -/

theorem depthAfter?_append (depth : Nat) (before after : List Char) :
    depthAfter? depth (before ++ after) = (depthAfter? depth before).bind (depthAfter? · after) := by
  fun_induction depthAfter? depth before with
  | case1 depth => rfl
  | case2 depth rest ih => simp [depthAfter?, ih]
  | case3 rest notOpen => simp [depthAfter?]
  | case4 rest notOpen depth ih => simp [depthAfter?, ih]
  | case5 depth c rest notOpen notClose ih => simp [depthAfter?, notOpen, notClose, ih]

/-- No blank is a brace. -/
theorem depthAfter?_blanks {blanks : List Char} (blank : ∀ c ∈ blanks, isBlank c = true)
    (depth : Nat) : depthAfter? depth blanks = some depth := by
  induction blanks with
  | nil => rfl
  | cons c rest ih =>
    have first := blank c List.mem_cons_self
    have notOpen : c ≠ '\x7b' := by
      rintro rfl
      cases first
    have notClose : c ≠ '\x7d' := by
      rintro rfl
      cases first
    have later := ih fun c member => blank c (List.mem_cons_of_mem _ member)
    simp only [depthAfter?, notOpen, notClose, if_false, later]

@[simp] theorem depthAfter?_trimEnd (depth : Nat) (line : List Char) :
    depthAfter? depth (trimEnd line) = depthAfter? depth line := by
  obtain ⟨blanks, shape, blank⟩ := trimEnd_append_blanks line
  conv => rhs; rw [shape, depthAfter?_append]
  simp [depthAfter?_blanks blank]

/-- Blanks at the ends of lines change neither the verdict on the braces nor the line it names. -/
theorem checkLines_map_trimEnd (line depth : Nat) (texts : List (List Char)) :
    checkLines line depth (texts.map trimEnd) = checkLines line depth texts := by
  induction texts generalizing line depth with
  | nil => rfl
  | cons text rest ih =>
    rw [List.map_cons, checkLines, checkLines, depthAfter?_trimEnd]
    split
    · exact ih _ _
    · rfl

/-! ### Normalised texts -/

theorem main_word : Word "main".toList := by
  rw [String.toList_ofList]
  refine ⟨List.cons_ne_nil _ _, ?_⟩
  simp only [List.forall_mem_cons]
  exact ⟨rfl, rfl, rfl, rfl, List.forall_mem_nil _⟩

theorem lines_normalise (source : String) :
    lines (normalise source).toList = (lines source.toList).map trimEnd := by
  rw [normalise, String.toList_ofList, lines_trimmed]

theorem allBlank_normalise (source : String) :
    allBlank (normalise source).toList = allBlank source.toList := by
  rw [allBlank_eq_lines, allBlank_eq_lines, lines_normalise, List.all_map]
  congr 1
  exact funext allBlank_trimEnd

theorem occurs_normalise {word : List Char} (isWord : Word word) (source : String) :
    occurs word (normalise source).toList = occurs word source.toList := by
  rw [Bool.eq_iff_iff, occurs_iff, occurs_iff, isWord.infix_iff_lines,
    isWord.infix_iff_lines, lines_normalise]
  constructor
  · rintro ⟨_, member, inside⟩
    obtain ⟨line, listed, rfl⟩ := List.mem_map.mp member
    exact ⟨line, listed, (isWord.infix_trimEnd line).mp inside⟩
  · rintro ⟨line, listed, inside⟩
    exact ⟨trimEnd line, List.mem_map_of_mem listed, (isWord.infix_trimEnd line).mpr inside⟩

/-- The check says of a normalised text what it says of the text. -/
theorem checkStructure_normalise (source : String) :
    checkStructure (normalise source) = checkStructure source := by
  simp only [checkStructure, allBlank_normalise, occurs_normalise main_word, lines_normalise,
    checkLines_map_trimEnd]

/-! ### Texts given by their lines -/

/-- Lines of a text that passes the check. -/
structure SoundLines (texts : List (List Char)) : Prop where
  unbroken : ∀ text ∈ texts, '\n' ∉ text
  plain : ∀ text ∈ texts, '\r' ∉ text
  entry : ∃ text ∈ texts, occurs "main".toList text = true
  balanced : (checkLines 1 0 texts).toBool = true

instance (texts : List (List Char)) : Decidable (SoundLines texts) :=
  decidable_of_iff
    ((∀ text ∈ texts, '\n' ∉ text) ∧ (∀ text ∈ texts, '\r' ∉ text) ∧
      (∃ text ∈ texts, occurs "main".toList text = true) ∧ (checkLines 1 0 texts).toBool = true)
    ⟨fun ⟨unbroken, plain, entry, balanced⟩ => ⟨unbroken, plain, entry, balanced⟩,
      fun ⟨unbroken, plain, entry, balanced⟩ => ⟨unbroken, plain, entry, balanced⟩⟩

theorem SoundLines.lines_source {texts : List String}
    (sound : SoundLines (texts.map String.toList)) :
    lines (BuiltinShader.source texts).toList = texts.map String.toList := by
  have shape : (BuiltinShader.source texts).toList =
      (texts.map String.toList).flatMap fun line => line ++ ['\n'] := by
    simp [BuiltinShader.source, String.toList_join, List.flatMap_map]
  rw [shape]
  refine lines_closed sound.unbroken ?_
  intro line member rest reversed
  have inside : '\r' ∈ line.reverse := reversed ▸ List.mem_cons_self
  exact sound.plain line member (List.mem_reverse.mp inside)

theorem SoundLines.passes {texts : List String} (sound : SoundLines (texts.map String.toList)) :
    checkStructure (BuiltinShader.source texts) = .ok () := by
  obtain ⟨line, listed, mentions⟩ := sound.entry
  have entry : "main".toList <:+: (BuiltinShader.source texts).toList := by
    rw [main_word.infix_iff_lines, sound.lines_source]
    exact ⟨line, listed, (occurs_iff _ _).mp mentions⟩
  have something := main_word.not_allBlank entry
  have found := (occurs_iff _ _).mpr entry
  have balanced := sound.balanced
  unfold checkStructure
  dsimp only
  rw [something, found, sound.lines_source]
  generalize checkLines 1 0 (texts.map String.toList) = verdict at balanced
  cases verdict with
  | ok _ => rfl
  | error fault => cases balanced

/-- What passes has something in it. -/
theorem not_allBlank_of_passes {source : String} (passes : checkStructure source = .ok ()) :
    Text.allBlank source.toList = false := by
  cases blank : Text.allBlank source.toList with
  | false => rfl
  | true =>
    unfold checkStructure at passes
    dsimp only at passes
    rw [blank] at passes
    cases passes

/-! ### The texts that ship with the program -/

theorem shipped_texts_pass : ∀ text ∈ BuiltinShader.vertexText :: BuiltinShader.fallbackFragment ::
    BuiltinShader.all.map (·.fragment), checkStructure text = .ok () := by
  simp only [BuiltinShader.all, List.map_cons, List.map_nil, List.forall_mem_cons]
  refine ⟨?vertex, ?fallback, ?none, ?crt, ?scanlines, ?lcd, List.forall_mem_nil _⟩
  all_goals
    refine SoundLines.passes ?_
    -- Literals are opened here: the characters of a long one are slow to compute.
    repeat rw [List.map_cons, String.toList_ofList]
    decide +kernel

end Gpu
end Overlay
