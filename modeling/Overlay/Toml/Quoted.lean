import Overlay.Number.Numeral

/-! Text of TOML between quotes. Double quotes have escapes and single quotes have none; three of
either kind hold several lines, and up to two more may stand right before the closing three. -/
namespace Overlay.Toml.Quoted

/-- A character that may stand in text as it is, apart from the quote and the escape mark. -/
def isPlain (c : Char) : Bool :=
  c == '\t' || (0x20 ≤ c.toNat && c.toNat != 0x7F)

/-- The character that an escaped letter stands for. -/
def escaped? (c : Char) : Option Char :=
  match c with
  | 'b' => some '\x08'
  | 't' => some '\t'
  | 'n' => some '\n'
  | 'f' => some '\x0c'
  | 'r' => some '\r'
  | '"' => some '"'
  | '\\' => some '\\'
  | _ => none

/-- The character with a number in hexadecimal digits; a surrogate is none. -/
def scalar? (digits : List Char) : Option Char := do
  let value ← Numeral.value? 16 0x10FFFF digits
  if h : value.isValidChar then some (Char.ofNatAux value h) else none

/-- The rest of an escape after its mark: a character, and how many characters wrote it. -/
def escape? : List Char → Option (Char × Nat)
  | 'u' :: rest =>
    if (rest.take 4).length < 4 then none else (scalar? (rest.take 4)).map fun c => (c, 5)
  | 'U' :: rest =>
    if (rest.take 8).length < 8 then none else (scalar? (rest.take 8)).map fun c => (c, 9)
  | c :: _ => (escaped? c).map fun c => (c, 1)
  | [] => none

/-- Text on one line up to its quote, collected backwards. Characters that an escape has accounted
for are passed over. -/
def lineFrom (mark : Char) (passing : Nat) (done : List Char) :
    List Char → Option (List Char × List Char)
  | [] => none
  | c :: rest =>
    match passing with
    | passing + 1 => lineFrom mark passing done rest
    | 0 =>
      if c == mark then some (done.reverse, rest)
      else if c == '\\' && mark == '"' then
        match escape? rest with
        | some (escaped, count) => lineFrom mark count (escaped :: done) rest
        | none => none
      else if isPlain c then lineFrom mark 0 (c :: done) rest
      else none

/-- Where the reader of several lines stands. -/
inductive Mode where
  | plain
  /-- Passing over characters that an escape has accounted for. -/
  | passing (count : Nat)
  /-- After a mark at the end of a line: blanks and line ends are dropped up to the next text. -/
  | joining (sawLineEnd : Bool)
  deriving DecidableEq, Repr

/-- A line end at the beginning, and what follows it. -/
def lineEnd? : List Char → Option (List Char)
  | '\n' :: rest => some rest
  | '\r' :: '\n' :: rest => some rest
  | _ => none

/-- Whether an escape mark stands at the end of its line as far as blanks go. -/
def joins (rest : List Char) : Bool :=
  match rest with
  | c :: _ => c == ' ' || c == '\t' || (lineEnd? rest).isSome
  | [] => false

/-- Several lines up to three quotes, collected backwards, with the quotes read in a row. A line end
becomes one newline however it is written. -/
def linesFrom (mark : Char) (mode : Mode) (quotes : Nat) (done : List Char) :
    List Char → Option (List Char × List Char)
  | [] => if 3 ≤ quotes then some ((List.replicate (quotes - 3) mark ++ done).reverse, []) else none
  | c :: rest =>
    match mode with
    | .passing (count + 1) => linesFrom mark (.passing count) quotes done rest
    | .joining false =>
      if c == '\n' then linesFrom mark (.joining true) quotes done rest
      else if c == ' ' || c == '\t' || (lineEnd? (c :: rest)).isSome then
        linesFrom mark (.joining false) quotes done rest
      else none
    | _ =>
      if mode == .joining true && (c == ' ' || c == '\t' || (lineEnd? (c :: rest)).isSome) then
        linesFrom mark (.joining true) quotes done rest
      else if c == mark then
        if quotes < 5 then linesFrom mark .plain (quotes + 1) done rest else none
      else if 3 ≤ quotes then
        some ((List.replicate (quotes - 3) mark ++ done).reverse, c :: rest)
      else
        let done := List.replicate quotes mark ++ done
        if c == '\\' && mark == '"' then
          if joins rest then linesFrom mark (.joining false) 0 done rest
          else
            match escape? rest with
            | some (escaped, count) => linesFrom mark (.passing count) 0 (escaped :: done) rest
            | none => none
        else if c == '\n' then linesFrom mark .plain 0 ('\n' :: done) rest
        else if (lineEnd? (c :: rest)).isSome then linesFrom mark .plain 0 done rest
        else if isPlain c then linesFrom mark .plain 0 (c :: done) rest
        else none

/-- Text after its opening quote, on one line. -/
def line? (mark : Char) (cs : List Char) : Option (String × List Char) :=
  (lineFrom mark 0 [] cs).map fun (text, rest) => (String.ofList text, rest)

/-- Text after its three opening quotes; a line end right after them is no part of it. -/
def lines? (mark : Char) (cs : List Char) : Option (String × List Char) :=
  (linesFrom mark .plain 0 [] ((lineEnd? cs).getD cs)).map fun (text, rest) =>
    (String.ofList text, rest)

/-- Text that begins with a quote. -/
def read? (mark : Char) (cs : List Char) : Option (String × List Char) :=
  match cs with
  | a :: b :: c :: rest =>
    if a == mark && b == mark && c == mark then lines? mark rest
    else if a == mark then line? mark (b :: c :: rest)
    else none
  | a :: rest => if a == mark then line? mark rest else none
  | [] => none

end Overlay.Toml.Quoted
