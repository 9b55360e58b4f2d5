/-! Lines and separators. A line ends at a newline, and a carriage return right before that newline
belongs to the line end, not to the line. What follows the last newline is a line only when it is
not empty, and a carriage return there belongs to it. -/
namespace Overlay.Text

/-- A line collected backwards, closed by its newline. -/
def closeLine : List Char → List Char
  | '\r' :: line => line.reverse
  | line => line.reverse

/-- The lines of a text, the one being read collected backwards. -/
def linesFrom (line : List Char) : List Char → List (List Char)
  | [] => if line.isEmpty then [] else [line.reverse]
  | '\n' :: rest => closeLine line :: linesFrom [] rest
  | c :: rest => linesFrom (c :: line) rest

def lines (cs : List Char) : List (List Char) :=
  linesFrom [] cs

/-- The pieces between separators, the one being read collected backwards. -/
def splitFrom (separates : Char → Bool) (piece : List Char) : List Char → List (List Char)
  | [] => [piece.reverse]
  | c :: rest =>
    if separates c then piece.reverse :: splitFrom separates [] rest
    else splitFrom separates (c :: piece) rest

/-- The pieces between separators: one more than there are separators, empty ones included. -/
def splitAll (separates : Char → Bool) (cs : List Char) : List (List Char) :=
  splitFrom separates [] cs

/-- What stands before and after the first occurrence of a character. -/
def splitFirst (mark : Char) (cs : List Char) : Option (List Char × List Char) :=
  match cs.dropWhile (· ≠ mark) with
  | [] => none
  | _ :: rest => some (cs.takeWhile (· ≠ mark), rest)

/-- The pieces of a path with a separator between them. -/
def joinWith (mark : Char) : List (List Char) → List Char
  | [] => []
  | [piece] => piece
  | piece :: rest => piece ++ mark :: joinWith mark rest

/-- What follows the given beginning. -/
def after? : List Char → List Char → Option (List Char)
  | [], rest => some rest
  | _ :: _, [] => none
  | a :: start, c :: rest => if a = c then after? start rest else none

/-- What comes before the given ending. -/
def before? (ending cs : List Char) : Option (List Char) :=
  (after? ending.reverse cs.reverse).map List.reverse

/-- Whether the second text occurs in the first. -/
def occurs (needle : List Char) : List Char → Bool
  | [] => needle.isEmpty
  | c :: rest => (after? needle (c :: rest)).isSome || occurs needle rest

end Overlay.Text
