import Overlay.Toml.Scalar
import Overlay.Toml.Quoted
import Overlay.Text.Line

/-! Reading TOML. A document is a list of statements, one a line, and reading them is separate from
building the tables they describe. Arrays and tables in braces nest to a limit, so a hostile
document cannot exhaust anything. -/
namespace Overlay.Toml

/-- How many values may be open inside each other, and how many names a key may have. -/
def deepest : Nat := 79

def isGap (c : Char) : Bool :=
  c == ' ' || c == '\t'

def skipGaps (cs : List Char) : List Char :=
  cs.dropWhile isGap

/-- What a comment consists of after its mark. -/
def isCommentChar (c : Char) : Bool :=
  Quoted.isPlain c

/-- Blanks, line ends and comments inside an array. -/
def skipTrivia (inComment : Bool) : List Char → List Char
  | [] => []
  | c :: rest =>
    if inComment && isCommentChar c then skipTrivia true rest
    else if isGap c || c == '\n' then skipTrivia false rest
    else if (Quoted.lineEnd? (c :: rest)).isSome then skipTrivia false rest
    else if c == '#' then skipTrivia true rest
    else c :: rest

/-- The end of a statement: blanks and a comment may stand before the line end or the end of the
text. -/
def endLine? (cs : List Char) : Option (List Char) :=
  let cs := match skipGaps cs with
    | '#' :: rest => rest.dropWhile isCommentChar
    | cs => cs
  match cs with
  | [] => some []
  | cs => Quoted.lineEnd? cs

/-! ### Keys -/

def isBareKeyChar (c : Char) : Bool :=
  c.isAlphanum || c == '-' || c == '_'

/-- One name: bare, or in quotes on one line. -/
def name? (cs : List Char) : Option (String × List Char) :=
  match cs with
  | '"' :: rest => Quoted.line? '"' rest
  | '\'' :: rest => Quoted.line? '\'' rest
  | _ =>
    let bare := cs.takeWhile isBareKeyChar
    if bare.isEmpty then none else some (String.ofList bare, cs.dropWhile isBareKeyChar)

/-- Names with points between them, at most so many. -/
def names? : Nat → List Char → Option (List String × List Char)
  | 0, _ => none
  | most + 1, cs => do
    let (name, rest) ← name? (skipGaps cs)
    match skipGaps rest with
    | '.' :: rest =>
      let (names, rest) ← names? most rest
      some (name :: names, rest)
    | rest => some ([name], rest)

/-- A key: the tables it goes through and its last name. -/
def key? (cs : List Char) : Option ((List String × String) × List Char) := do
  let (names, rest) ← names? deepest cs
  let last ← names.getLast?
  some ((names.dropLast, last), rest)

/-! ### Values -/

/-- Items up to the closing bracket; a comma may follow the last one. -/
def items? (item : List Char → Option (Value × List Char)) :
    Nat → List Value → List Char → Option (List Value × List Char)
  | 0, _, _ => none
  | fuel + 1, done, cs =>
    match skipTrivia false cs with
    | ']' :: rest => some (done.reverse, rest)
    | cs => do
      let (value, rest) ← item cs
      match skipTrivia false rest with
      | ',' :: rest => items? item fuel (value :: done) rest
      | ']' :: rest => some ((value :: done).reverse, rest)
      | _ => none

/-- A key, an equals sign and a value. -/
def pair? (item : List Char → Option (Value × List Char)) (cs : List Char) :
    Option ((List String × String × Value) × List Char) := do
  let ((path, last), rest) ← key? cs
  match rest with
  | '=' :: rest =>
    let (value, rest) ← item (skipGaps rest)
    some ((path, last, value), rest)
  | _ => none

/-- Pairs up to the closing brace, all on one line and without a comma after the last. -/
def pairs? (item : List Char → Option (Value × List Char)) :
    Nat → Entries → List Char → Option (Entries × List Char)
  | 0, _, _ => none
  | fuel + 1, entries, cs => do
    let ((path, last, value), rest) ← pair? item cs
    let entries ← entries.assign? last value path true
    match skipGaps rest with
    | ',' :: rest => pairs? item fuel entries rest
    | '}' :: rest => some (entries, rest)
    | _ => none

/-- A value that is not in brackets or braces. -/
def plain? (cs : List Char) : Option (Value × List Char) :=
  match cs with
  | '"' :: _ => (Quoted.read? '"' cs).map fun (text, rest) => (.text text, rest)
  | '\'' :: _ => (Quoted.read? '\'' cs).map fun (text, rest) => (.text text, rest)
  | _ => Scalar.read? cs

/-- A value, given how many items it may hold and how many more values may be opened inside it.
Every item takes a character, so the length of the whole text is enough of the first. -/
def value? (most : Nat) : Nat → List Char → Option (Value × List Char)
  | 0, cs => plain? cs
  | room + 1, cs =>
    match cs with
    | '[' :: rest =>
      (items? (value? most room) most [] rest).map fun (items, rest) => (.array items, rest)
    | '{' :: rest =>
      match skipGaps rest with
      | '}' :: rest => some (.table .inline [], rest)
      | rest =>
        (pairs? (value? most room) most [] rest).map fun (entries, rest) =>
          (.table .inline entries, rest)
    | _ => plain? cs

/-! ### Statements -/

/-- A header's key between its brackets, to the end of its line. -/
def header? (closing : String) (cs : List Char) :
    Option ((List String × String) × List Char) := do
  let (key, rest) ← key? cs
  let rest ← Text.after? closing.toList rest
  let rest ← endLine? rest
  some (key, rest)

/-- One line: a statement, or nothing but blanks and a comment. -/
def statement? (most : Nat) (cs : List Char) : Option (Option Statement × List Char) :=
  match cs with
  | '[' :: '[' :: rest =>
    (header? "]]" rest).map fun ((path, key), rest) => (some (.another path key), rest)
  | '[' :: rest =>
    (header? "]" rest).map fun ((path, key), rest) => (some (.header path key), rest)
  | _ =>
    match endLine? cs with
    | some rest => some (none, rest)
    | none => do
      let ((path, key, value), rest) ← pair? (value? most deepest) cs
      let rest ← endLine? rest
      some (some (.assign path key value), rest)

/-- Statements to the end. A line takes a character, so the text's length is fuel enough. -/
def statements? (most : Nat) : Nat → List Statement → List Char → Option (List Statement)
  | 0, _, _ => none
  | fuel + 1, done, cs =>
    match skipGaps cs with
    | [] => some done.reverse
    | cs =>
      match statement? most cs with
      | some (some statement, rest) => statements? most fuel (statement :: done) rest
      | some (none, rest) => statements? most fuel done rest
      | none => none

/-- The entries of a document. A byte order mark in front is no part of it. -/
def parse? (text : String) : Option Entries := do
  let cs := match text.toList with
    | '\ufeff' :: rest => rest
    | cs => cs
  let most := cs.length + 1
  let statements ← statements? most most [] cs
  let document ← Document.ofStatements? {} statements
  some document.entries

end Overlay.Toml
