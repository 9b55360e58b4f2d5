import Overlay.Text.Utf8
import Overlay.Number.Numeral

/-! JSON documents as octets. Reading has two steps, tokens and then the tree, and both are one pass
over their input. Text inside a document stays as it is written until somebody asks for it: a string
that nobody uses may hold octets or escapes that are no text, as long as it is closed. Writing puts
nothing between tokens and escapes only what must be escaped. -/
namespace Overlay

namespace Json

/-- A piece of a string between its quotes: an octet, or a sixteen-bit unit written as an escape. -/
inductive Piece where
  | octet (b : UInt8)
  | unit (n : Nat)
  deriving DecidableEq, Repr

inductive Token where
  | openBrace
  | closeBrace
  | openBracket
  | closeBracket
  | comma
  | colon
  | null
  | boolean (b : Bool)
  /-- The characters of a number that has the right form. -/
  | number (characters : List Char)
  | text (pieces : List Piece)
  deriving DecidableEq, Repr

end Json

/-- A document. Members keep their order and may repeat. -/
inductive Json where
  | null
  | boolean (b : Bool)
  | number (characters : List Char)
  | text (pieces : List Json.Piece)
  | array (items : List Json)
  | object (members : List (List Json.Piece × Json))
  deriving Repr

namespace Json

/-! ### Tokens -/

def isSpace (b : UInt8) : Bool :=
  b == 0x20 || b == 0x09 || b == 0x0A || b == 0x0D

def char (b : UInt8) : Char :=
  Char.ofNat b.toNat

def isNumberPart (b : UInt8) : Bool :=
  Numeral.isDigit (char b) || b == 0x2B || b == 0x2D || b == 0x2E || b == 0x45 || b == 0x65

/-- The octet that an escaped letter stands for. -/
def escaped? (b : UInt8) : Option UInt8 :=
  match char b with
  | '"' => some 0x22
  | '\\' => some 0x5C
  | '/' => some 0x2F
  | 'b' => some 0x08
  | 'f' => some 0x0C
  | 'n' => some 0x0A
  | 'r' => some 0x0D
  | 't' => some 0x09
  | _ => none

/-- An exponent, or nothing. -/
def exponentForm : List Char → Bool
  | [] => true
  | mark :: rest =>
    (mark == 'e' || mark == 'E') &&
      (let digits := match rest with
        | '+' :: digits => digits
        | '-' :: digits => digits
        | digits => digits
      !digits.isEmpty && digits.all Numeral.isDigit)

/-- A fraction of at least one digit or none, then an exponent or none. -/
def fractionForm : List Char → Bool
  | '.' :: rest =>
    !(rest.takeWhile Numeral.isDigit).isEmpty && exponentForm (rest.dropWhile Numeral.isDigit)
  | rest => exponentForm rest

/-- The form of a number without its sign: no zero stands before another digit. -/
def unsignedForm : List Char → Bool
  | '0' :: rest => fractionForm rest
  | d :: rest =>
    Numeral.isDigit d && fractionForm (rest.dropWhile Numeral.isDigit)
  | [] => false

def numberForm : List Char → Bool
  | '-' :: rest => unsignedForm rest
  | rest => unsignedForm rest

/-- Where the reader of tokens stands: between tokens, inside a string, inside a number, or inside a
word, with what it has collected backwards. -/
inductive Inside where
  | between
  | text (pieces : List Piece)
  | escape (pieces : List Piece)
  /-- Hexadecimal digits of an escaped unit still to come, and their value so far. -/
  | unit (pieces : List Piece) (missing value : Nat)
  | number (characters : List Char)
  | word (characters : List Char)
  deriving DecidableEq, Repr

/-- The token that a finished word is. -/
def word? (characters : List Char) : Option Token :=
  if characters = "null".toList then some .null
  else if characters = "true".toList then some (.boolean true)
  else if characters = "false".toList then some (.boolean false)
  else none

/-- The token that ends where something else begins. -/
def finish? : Inside → Option (List Token)
  | .between => some []
  | .number characters =>
    let characters := characters.reverse
    if numberForm characters then some [.number characters] else none
  | .word characters => (word? characters.reverse).map fun token => [token]
  | _ => none

/-- What begins with an octet between tokens: tokens that are complete, and where the reader stands
after it. -/
def begin? (b : UInt8) : Option (List Token × Inside) :=
  match char b with
  | '{' => some ([.openBrace], .between)
  | '}' => some ([.closeBrace], .between)
  | '[' => some ([.openBracket], .between)
  | ']' => some ([.closeBracket], .between)
  | ',' => some ([.comma], .between)
  | ':' => some ([.colon], .between)
  | '"' => some ([], .text [])
  | c =>
    if isSpace b then some ([], .between)
    else if isNumberPart b && c != 'e' && c != 'E' then some ([], .number [c])
    else if 'a' ≤ c && c ≤ 'z' then some ([], .word [c])
    else none

/-- One octet on. -/
def step? (inside : Inside) (b : UInt8) : Option (List Token × Inside) :=
  match inside with
  | .between => begin? b
  | .text pieces =>
    if b == 0x22 then some ([.text pieces.reverse], .between)
    else if b == 0x5C then some ([], .escape pieces)
    else if b < 0x20 then none
    else some ([], .text (.octet b :: pieces))
  | .escape pieces =>
    if b == 0x75 then some ([], .unit pieces 4 0)
    else (escaped? b).map fun octet => ([], .text (.octet octet :: pieces))
  | .unit pieces missing value => do
    let digit ← Numeral.hexDigit? (char b)
    if missing ≤ 1 then some ([], .text (.unit (16 * value + digit) :: pieces))
    else some ([], .unit pieces (missing - 1) (16 * value + digit))
  | .number characters =>
    if isNumberPart b then some ([], .number (char b :: characters))
    else do
      let before ← finish? inside
      let (tokens, inside) ← begin? b
      some (before ++ tokens, inside)
  | .word characters =>
    if 'a' ≤ char b && char b ≤ 'z' then some ([], .word (char b :: characters))
    else do
      let before ← finish? inside
      let (tokens, inside) ← begin? b
      some (before ++ tokens, inside)

/-- Tokens to the end, those so far collected backwards. -/
def tokensFrom (inside : Inside) (done : List Token) : Bytes → Option (List Token)
  | [] => (finish? inside).map fun last => done.reverse ++ last
  | b :: rest =>
    match step? inside b with
    | some (tokens, inside) => tokensFrom inside (tokens.reverse ++ done) rest
    | none => none

def tokens? (bytes : Bytes) : Option (List Token) :=
  tokensFrom .between [] bytes

/-! ### The tree -/

/-- A value that is still open, with what it holds so far backwards. -/
inductive Frame where
  | array (items : List Json)
  /-- The key is that of the member being read. -/
  | object (members : List (List Piece × Json)) (key : List Piece)
  deriving Repr

/-- What the next token has to be. -/
inductive Expected where
  | value
  /-- A value or the end of an array that has none yet. -/
  | firstItem
  /-- A key or the end of an object that has no member yet. -/
  | firstKey (members : List (List Piece × Json))
  | key (members : List (List Piece × Json))
  | colon (members : List (List Piece × Json)) (key : List Piece)
  /-- A comma or the end of the innermost open value. -/
  | next
  | nothing
  deriving Repr

/-- Where the reader of the tree stands: the open values, innermost first, and the document once it
is complete. -/
structure Reader where
  pending : List Frame := []
  expected : Expected := .value
  result : Option Json := none
  deriving Repr

/-- A value has ended. -/
def Reader.close (reader : Reader) (value : Json) : Reader :=
  match reader.pending with
  | [] => ⟨[], .nothing, some value⟩
  | .array items :: outer => ⟨.array (value :: items) :: outer, .next, none⟩
  | .object members key :: outer => ⟨.object ((key, value) :: members) [] :: outer, .next, none⟩

/-- A value begins. -/
def Reader.begin? (reader : Reader) : Token → Option Reader
  | .null => some (reader.close .null)
  | .boolean b => some (reader.close (.boolean b))
  | .number characters => some (reader.close (.number characters))
  | .text pieces => some (reader.close (.text pieces))
  | .openBracket =>
    some { reader with pending := .array [] :: reader.pending, expected := .firstItem }
  | .openBrace => some { reader with expected := .firstKey [] }
  | _ => none

/-- The innermost array ends. -/
def Reader.closeArray? (reader : Reader) : Option Reader :=
  match reader.pending with
  | .array items :: outer =>
    some (Reader.close { reader with pending := outer } (.array items.reverse))
  | _ => none

def Reader.step? (reader : Reader) (token : Token) : Option Reader :=
  match reader.expected, token with
  | .value, token => reader.begin? token
  | .firstItem, .closeBracket => reader.closeArray?
  | .firstItem, token => reader.begin? token
  | .firstKey _, .closeBrace => some (reader.close (.object []))
  | .firstKey members, .text key => some { reader with expected := .colon members key }
  | .key members, .text key => some { reader with expected := .colon members key }
  | .colon members key, .colon =>
    some { reader with pending := .object members key :: reader.pending, expected := .value }
  | .next, .closeBracket => reader.closeArray?
  | .next, .closeBrace =>
    match reader.pending with
    | .object members _ :: outer =>
      some (Reader.close { reader with pending := outer } (.object members.reverse))
    | _ => none
  | .next, .comma =>
    match reader.pending with
    | .object members _ :: outer => some { reader with pending := outer, expected := .key members }
    | .array _ :: _ => some { reader with expected := .value }
    | [] => none
  | _, _ => none

def Reader.run? (reader : Reader) : List Token → Option Reader
  | [] => some reader
  | token :: rest => (reader.step? token).bind fun reader => reader.run? rest

/-- The document that tokens make, all of them used. -/
def ofTokens? (tokens : List Token) : Option Json :=
  (Reader.run? {} tokens).bind (·.result)

/-- The document that octets write. -/
def parse? (bytes : Bytes) : Option Json :=
  (tokens? bytes).bind ofTokens?

/-! ### Text and numbers -/

/-- The octets that the pieces of a string write: a high surrogate takes the low one right after it,
and a surrogate alone is an error. -/
def octets? : List Piece → Option Bytes
  | [] => some []
  | .octet b :: rest => (octets? rest).map (b :: ·)
  | .unit high :: rest =>
    if 0xDC00 ≤ high ∧ high ≤ 0xDFFF then none
    else if 0xD800 ≤ high ∧ high ≤ 0xDBFF then
      match rest with
      | .unit low :: rest =>
        if 0xDC00 ≤ low ∧ low ≤ 0xDFFF then
          (octets? rest).map
            (Text.Utf8.encodeChar
              (Char.ofNat (0x10000 + (high - 0xD800) * 0x400 + (low - 0xDC00))) ++ ·)
        else none
      | _ => none
    else (octets? rest).map (Text.Utf8.encodeChar (Char.ofNat high) ++ ·)

/-- The text of a string. -/
def textOf? (pieces : List Piece) : Option String :=
  ((octets? pieces).bind Text.Utf8.decode?).map String.ofList

/-- A whole number up to a limit. A sign, a fraction and an exponent rule it out, also where the
value would be whole. -/
def naturalOf? (limit : Nat) (characters : List Char) : Option Nat :=
  Numeral.bounded? limit characters

/-! ### Writing -/

/-- A character inside a string: a quote, a backslash and the control characters below the space are
escaped, five of these by a letter; nothing else is. -/
def writeChar (c : Char) : List Char :=
  if c = '"' then ['\\', '"']
  else if c = '\\' then ['\\', '\\']
  else if c = '\x08' then ['\\', 'b']
  else if c = '\x0c' then ['\\', 'f']
  else if c = '\n' then ['\\', 'n']
  else if c = '\r' then ['\\', 'r']
  else if c = '\t' then ['\\', 't']
  else if c.toNat < 0x20 then
    ['\\', 'u', '0', '0', Numeral.hexChar (c.toNat / 16), Numeral.hexChar (c.toNat % 16)]
  else [c]

def writeText (text : String) : List Char :=
  '"' :: text.toList.flatMap writeChar ++ ['"']

end Json
end Overlay
