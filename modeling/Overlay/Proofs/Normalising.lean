import Overlay.Proofs.StructuralCheck

/-! What normalising leaves of a text, and what it does not see. The result is fixed by the lines of
the text without the blanks at their ends. So nothing but blanks is lost, the result is its own
result, and neither the kind of the line ends nor blanks before them show in it. A line of the text is
followed by its end, by which it is read, and a carriage return before a newline is blank: that is why
it makes no difference to which of the two it belongs. -/
namespace Overlay
open Text

namespace Text

/-! ### Lines without the blanks at their ends -/

theorem trimmed_append {line : List Char} (unbroken : '\n' ∉ line) (rest : List Char) :
    (lines (line ++ '\n' :: rest)).map trimEnd = trimEnd line :: (lines rest).map trimEnd := by
  rw [lines_append unbroken, List.map_cons, trimEnd_closeLine]

theorem trimmed_unbroken {line : List Char} (unbroken : '\n' ∉ line) (something : line ≠ []) :
    (lines line).map trimEnd = [trimEnd line] := by
  rw [lines_unbroken unbroken, if_neg something, List.map_singleton]

/-! ### What is not blank -/

/-- The characters of a text that are not blank, in their order. -/
def content (cs : List Char) : List Char := cs.filter fun c => !isBlank c

theorem content_append (one other : List Char) : content (one ++ other) = content one ++ content other :=
  List.filter_append one other

theorem content_blanks {blanks : List Char} (blank : ∀ c ∈ blanks, isBlank c = true) :
    content blanks = [] := by
  rw [content, List.filter_eq_nil_iff]
  intro c member
  simp [blank c member]

theorem content_trimEnd (line : List Char) : content (trimEnd line) = content line := by
  obtain ⟨blanks, shape, blank⟩ := trimEnd_append_blanks line
  conv => rhs; rw [shape, content_append, content_blanks blank, List.append_nil]

/-- What is not blank stands in the lines, whatever they end in. -/
theorem content_trimmed (cs : List Char) :
    content (((lines cs).map trimEnd).flatMap fun line => line ++ ['\n']) = content cs := by
  have newline : content ['\n'] = [] := rfl
  induction cs using byLines with
  | last line unbroken =>
    by_cases nothing : line = []
    · subst line
      rfl
    · rw [trimmed_unbroken unbroken nothing, List.flatMap_singleton, content_append, content_trimEnd,
        newline, List.append_nil]
  | closed line rest unbroken ih =>
    rw [trimmed_append unbroken, List.flatMap_cons, content_append, ih, content_append,
      content_trimEnd, newline, List.append_nil, content_append]
    rfl

/-! ### Blanks at the ends of lines -/

/-- The second text is the first with blanks other than newlines added at the ends of its lines. A
line ends before its newline, and as well before a carriage return that stands before the newline;
the last line ends with the text. -/
inductive Padded : List Char → List Char → Prop where
  | nothing : Padded [] []
  | last {line blanks : List Char} (something : line ≠ []) (unbroken : '\n' ∉ line)
      (blank : ∀ c ∈ blanks, isBlank c = true ∧ c ≠ '\n') : Padded line (line ++ blanks)
  | closed {line blanks carriage rest padded : List Char} (unbroken : '\n' ∉ line)
      (blank : ∀ c ∈ blanks, isBlank c = true ∧ c ≠ '\n') (ending : carriage ∈ [[], ['\r']])
      (later : Padded rest padded) :
    Padded (line ++ carriage ++ '\n' :: rest) (line ++ blanks ++ carriage ++ '\n' :: padded)

/-- The text with a carriage return before every newline. -/
def withCarriageReturns (cs : List Char) : List Char :=
  cs.flatMap fun c => if c = '\n' then ['\r', '\n'] else [c]

theorem Padded.trimmed {cs padded : List Char} (pads : Padded cs padded) :
    (lines padded).map trimEnd = (lines cs).map trimEnd := by
  have unbrokenBlanks {blanks : List Char} (blank : ∀ c ∈ blanks, isBlank c = true ∧ c ≠ '\n') :
      '\n' ∉ blanks := fun member => (blank _ member).2 rfl
  induction pads with
  | nothing => rfl
  | @last line blanks something unbroken blank =>
    have still : '\n' ∉ line ++ blanks := by simp [unbroken, unbrokenBlanks blank]
    rw [trimmed_unbroken still (by simp [something]), trimmed_unbroken unbroken something,
      trimEnd_append fun c member => (blank c member).1]
  | @closed line blanks carriage rest padded unbroken blank ending later ih =>
    have carriageBlank : ∀ c ∈ carriage, isBlank c = true ∧ c ≠ '\n' := by
      rcases List.mem_cons.mp ending with rfl | ending
      · exact List.forall_mem_nil _
      · rw [List.mem_singleton.mp ending]
        exact List.forall_mem_singleton.mpr ⟨rfl, by decide⟩
    have before : '\n' ∉ line ++ carriage := by simp [unbroken, unbrokenBlanks carriageBlank]
    have after : '\n' ∉ line ++ blanks ++ carriage := by
      simp [unbroken, unbrokenBlanks blank, unbrokenBlanks carriageBlank]
    rw [trimmed_append after, trimmed_append before, ih,
      trimEnd_append fun c member => (carriageBlank c member).1,
      trimEnd_append fun c member => (blank c member).1,
      trimEnd_append fun c member => (carriageBlank c member).1]

/-- Carriage returns before newlines are blanks at the ends of lines. -/
theorem padded_withCarriageReturns (cs : List Char) : Padded cs (withCarriageReturns cs) := by
  have plain {line : List Char} (unbroken : '\n' ∉ line) : withCarriageReturns line = line := by
    induction line with
    | nil => rfl
    | cons c rest ih =>
      rw [List.mem_cons, not_or] at unbroken
      simp [withCarriageReturns, Ne.symm unbroken.1] at ih ⊢
      exact ih unbroken.2
  induction cs using byLines with
  | last line unbroken =>
    rw [plain unbroken]
    by_cases nothing : line = []
    · subst line
      exact .nothing
    · simpa using Padded.last nothing unbroken (List.forall_mem_nil _)
  | closed line rest unbroken ih =>
    have shape : withCarriageReturns (line ++ '\n' :: rest) =
        line ++ ['\r'] ++ [] ++ '\n' :: withCarriageReturns rest := by
      have kept := plain unbroken
      simp only [withCarriageReturns, List.flatMap_append, List.flatMap_cons] at kept ⊢
      simp [kept]
    have closes : Padded (line ++ [] ++ '\n' :: rest)
        (line ++ ['\r'] ++ [] ++ '\n' :: withCarriageReturns rest) :=
      .closed unbroken (List.forall_mem_singleton.mpr ⟨rfl, by decide⟩) List.mem_cons_self ih
    rw [List.append_nil] at closes
    rwa [shape]

end Text

/-! ### The normaliser -/

/-- The normaliser, ready to compile. -/
def normaliser : Compiler :=
  (Compiler.ofKind .passthrough).start

theorem toList_normalise (source : String) :
    (normalise source).toList =
      ((lines source.toList).map trimEnd).flatMap fun line => line ++ ['\n'] := by
  rw [normalise, String.toList_ofList, List.flatMap_map]

theorem compile_normaliser {source : String} (something : allBlank source.toList = false)
    (stage : Stage) : normaliser.compile source stage = .ok (normalise source) := by
  change passthrough source stage = _
  simp [passthrough, something]

/-- The normaliser sees the lines of a text without the blanks at their ends, and nothing else. -/
theorem compile_congr {source other : String}
    (same : (lines other.toList).map trimEnd = (lines source.toList).map trimEnd) (stage : Stage) :
    normaliser.compile other stage = normaliser.compile source stage := by
  have blank (text : String) :
      allBlank text.toList = ((lines text.toList).map trimEnd).all allBlank := by
    rw [allBlank_eq_lines, List.all_map]
    congr 1
    exact funext fun line => (allBlank_trimEnd line).symm
  have results : normalise other = normalise source := by
    rw [← String.toList_inj, toList_normalise, toList_normalise, same]
  change passthrough other stage = passthrough source stage
  rw [passthrough, passthrough, blank, blank, same, results]

/-- A text and what normalising leaves of it. -/
structure Normalised (source output : String) : Prop where
  written : output.toList =
    ((lines source.toList).map trimEnd).flatMap fun line => line ++ ['\n']
  lines : lines output.toList = (lines source.toList).map trimEnd
  clean : ∀ line ∈ Text.lines output.toList, ∀ c, line.getLast? = some c → isBlank c = false
  content : content output.toList = content source.toList

theorem normalised_normalise (source : String) : Normalised source (normalise source) where
  written := toList_normalise source
  lines := Gpu.lines_normalise source
  clean := by
    intro line member c last
    rw [Gpu.lines_normalise] at member
    obtain ⟨origin, -, rfl⟩ := List.mem_map.mp member
    exact getLast?_trimEnd last
  content := by rw [toList_normalise, content_trimmed]

/-- A text that is not blank is normalised: every line of it without the blanks at its end, closed by
one newline, and no line more or less; nothing but blanks is lost. The result is normalised to itself,
and the text with a carriage return before every newline, or with any blanks at the ends of its lines,
is normalised to the same. -/
theorem normalising_loses_blanks_alone {source : String}
    (something : allBlank source.toList = false) (stage : Stage) :
    ∃ output, normaliser.compile source stage = .ok output ∧ Normalised source output ∧
      normaliser.compile output stage = .ok output ∧
      normaliser.compile (String.ofList (withCarriageReturns source.toList)) stage = .ok output ∧
      ∀ other : String, Padded source.toList other.toList →
        normaliser.compile other stage = .ok output := by
  have compiled := compile_normaliser something stage
  have padded (other : String) (pads : Padded source.toList other.toList) :
      normaliser.compile other stage = .ok (normalise source) :=
    (compile_congr pads.trimmed stage).trans compiled
  refine ⟨normalise source, compiled, normalised_normalise source, ?_, ?_, padded⟩
  · have settled : (lines (normalise source).toList).map trimEnd =
        (lines source.toList).map trimEnd := by
      simp [Gpu.lines_normalise, Function.comp_def]
    exact (compile_congr settled stage).trans compiled
  · refine padded _ ?_
    rw [String.toList_ofList]
    exact padded_withCarriageReturns source.toList

/-- A carriage return that ends no line stays in its line, and a wide blank at the end of the last line
goes. -/
theorem normalising_loses_blanks_alone_at_mixed_ends :
    allBlank "a\rb \r\n\n\tc\u3000".toList = false ∧
    normaliser.compile "a\rb \r\n\n\tc\u3000" .fragment = .ok "a\rb\n\n\tc\n" ∧
    normaliser.compile "a\rb\n\n\tc\n" .fragment = .ok "a\rb\n\n\tc\n" ∧
    normaliser.compile "a\rb \r\r\n\r\n\tc\u3000" .fragment = .ok "a\rb\n\n\tc\n" := by
  have something : allBlank "a\rb \r\n\n\tc\u3000".toList = false := by decide
  have written : normalise "a\rb \r\n\n\tc\u3000" = "a\rb\n\n\tc\n" := by decide
  have returns : String.ofList (withCarriageReturns "a\rb \r\n\n\tc\u3000".toList) =
      "a\rb \r\r\n\r\n\tc\u3000" := by decide
  obtain ⟨output, compiled, -, again, crlf, -⟩ := normalising_loses_blanks_alone something .fragment
  have result := compile_normaliser something .fragment
  rw [written, compiled] at result
  cases result
  exact ⟨something, compiled, again, returns ▸ crlf⟩

end Overlay
