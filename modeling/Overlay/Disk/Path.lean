import Overlay.Text.Line

/-! Paths as text. Segments stand between slashes; an empty one and a dot in the middle say nothing,
and two dots are kept, because what they mean depends on what the path names. Taking the parent of a
path and joining two paths look at the text alone. -/
namespace Overlay.Path

/-- A segment that says something. A dot does so only at the beginning of a relative path. -/
inductive Component where
  | here
  | up
  | name (text : String)
  deriving DecidableEq, Repr

def isSlash (c : Char) : Bool :=
  c == '/'

/-- The text between slashes, in order, the empty pieces included. -/
def pieces (path : String) : List String :=
  (Text.splitAll isSlash path.toList).map String.ofList

/-- A path without the slashes after its last piece. -/
def withoutEnd (path : String) : String :=
  let kept := (path.toList.reverse.dropWhile isSlash).reverse
  if kept.isEmpty then path else String.ofList kept

def isAbsolute (path : String) : Bool :=
  path.toList.head? == some '/'

/-- A piece that says nothing where it stands after others. -/
def isIdle (piece : String) : Bool :=
  piece == "" || piece == "."

def component (piece : String) : Component :=
  if piece == "." then .here else if piece == ".." then .up else .name piece

/-- The components after the root of an absolute path, or from the beginning of a relative one. -/
def components (path : String) : List Component :=
  match pieces path with
  | [] => []
  | first :: rest =>
    let rest := (rest.filter fun piece => !isIdle piece).map component
    if first == "" then rest else component first :: rest

/-- The last component, when it is a name. -/
def fileName? (path : String) : Option String :=
  match (components path).getLast? with
  | some (.name text) => some text
  | _ => none

/-- Pieces, last first, without the idle ones after the last component. The piece that the path
begins with is never idle: it is the root or a component. -/
def settle : List String → List String
  | [] => []
  | [first] => [first]
  | last :: rest => if isIdle last then settle rest else last :: rest

def join : List String → String
  | pieces => String.ofList (Text.joinWith '/' (pieces.map String.toList))

/-- The path without its last component; a path without components has no parent. The root is the
parent of what lies in it, and the empty path that of a single name. -/
def parent? (path : String) : Option String :=
  match settle (pieces path).reverse with
  | [] => none
  | [first] => if first == "" then none else some ""
  | _ :: rest =>
    match settle rest with
    | [""] => some "/"
    | rest => some (join rest.reverse)

/-- A path below another; an absolute one is itself. One slash stands between them. -/
def append (base path : String) : String :=
  if isAbsolute path then path
  else if base == "" || base.toList.getLast? == some '/' then base ++ path
  else base ++ "/" ++ path

/-- One component further from some names, last name first. -/
def advance (reached : List String) : Component → List String
  | .here => reached
  | .up => reached.tail
  | .name text => text :: reached

/-- Where a path leads from a directory when dots are folded by the text alone. -/
def fold (start : List String) (components : List Component) : List String :=
  (components.foldl advance start.reverse).reverse

/-- The names from the root that a path spells, a relative one from a working directory. -/
def anchor (workingDirectory : List String) (path : String) : List String :=
  fold (if isAbsolute path then [] else workingDirectory) (components path)

/-- The absolute path of names from the root. -/
def absolute (names : List String) : String :=
  "/" ++ join names

/-- A name before and after its last dot. A name that has no dot, or only one in front, has no
extension and is all stem. -/
def splitExtension (name : String) : String × Option String :=
  if name == ".." then (name, none)
  else
    match (Text.splitAll (· == '.') name.toList).reverse with
    | extension :: before :: rest =>
      let stem := Text.joinWith '.' ((before :: rest).reverse)
      if stem.isEmpty then (name, none) else (String.ofList stem, some (String.ofList extension))
    | _ => (name, none)

end Overlay.Path
