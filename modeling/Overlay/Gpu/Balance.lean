import Overlay.Text.Blank
import Overlay.Text.Line

/-! The structural check that stands in for a driver's compiler: some text, an entry point, and
braces that balance. The first of the three that fails is the one reported, and a closing brace too
many is reported with its line. -/
namespace Overlay.Gpu

/-- What is wrong with the structure of a source. -/
inductive StructureFault where
  | empty
  | noMain
  /-- The line of the first closing brace that closes nothing, counted from one. -/
  | unexpectedClose (line : Nat)
  | unclosed (count : Nat)
  deriving DecidableEq, Repr

def StructureFault.message : StructureFault → String
  | .empty => "empty source"
  | .noMain => "no main entry point"
  | .unexpectedClose line => "unexpected '\x7d' on line " ++ toString line
  | .unclosed count => toString count ++ " unclosed '\x7b'"

/-- How deep the braces are after a text that starts at a depth, none if one closes nothing. -/
def depthAfter? : Nat → List Char → Option Nat
  | depth, [] => some depth
  | depth, c :: rest =>
    if c = '\x7b' then depthAfter? (depth + 1) rest
    else if c = '\x7d' then
      match depth with
      | 0 => none
      | depth + 1 => depthAfter? depth rest
    else depthAfter? depth rest

/-- The braces of lines, from a line number and a depth on. -/
def checkLines (line depth : Nat) : List (List Char) → Except StructureFault Unit
  | [] => if depth = 0 then .ok () else .error (.unclosed depth)
  | text :: rest =>
    match depthAfter? depth text with
    | some depth => checkLines (line + 1) depth rest
    | none => .error (.unexpectedClose line)

def checkStructure (source : String) : Except StructureFault Unit :=
  let cs := source.toList
  if Text.allBlank cs then .error .empty
  else if !Text.occurs "main".toList cs then .error .noMain
  else checkLines 1 0 (Text.lines cs)

end Overlay.Gpu
