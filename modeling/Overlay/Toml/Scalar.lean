import Overlay.Toml

/-! Values of TOML that are written without brackets and quotes: truth values, numbers, dates and
times. Each is a run of letters, digits and a few signs, and a run is one value or none. -/
namespace Overlay.Toml.Scalar

/-- What a run consists of. -/
def isPart (c : Char) : Bool :=
  c.isAlphanum || c == '+' || c == '-' || c == '_' || c == '.' || c == ':'

/-- Digits without the underscores between them. An underscore stands between two digits only. -/
def ungroup? (isDigit : Char → Bool) (afterDigit : Bool) : List Char → Option (List Char)
  | [] => if afterDigit then some [] else none
  | c :: rest =>
    if isDigit c then (ungroup? isDigit true rest).map (c :: ·)
    else if c == '_' && afterDigit then ungroup? isDigit false rest
    else none

/-- A sign and the rest. -/
def splitSign : List Char → Bool × List Char
  | '-' :: rest => (true, rest)
  | '+' :: rest => (false, rest)
  | rest => (false, rest)

/-- Decimal digits of a whole part: no zero stands before another digit. -/
def whole? (cs : List Char) : Option (List Char) :=
  match ungroup? Numeral.isDigit false cs with
  | some ['0'] => some ['0']
  | some ('0' :: _) => none
  | digits => digits

def greatestInteger : Nat := 9223372036854775807

/-- Digits of a base after its sign, which is a zero and a small letter. -/
def based? (base : Nat) (digits : List Char) : Option Int := do
  let digits ← ungroup? (fun c => (Numeral.hexDigit? c).isSome) false digits
  (Numeral.value? base greatestInteger digits).map Int.ofNat

/-- A whole number of sixty-four bits with a sign: decimal, or without a sign in base sixteen, eight
or two. -/
def integer? (cs : List Char) : Option Int :=
  match cs with
  | '0' :: 'x' :: digits => based? 16 digits
  | '0' :: 'o' :: digits => based? 8 digits
  | '0' :: 'b' :: digits => based? 2 digits
  | _ => do
    let (negative, body) := splitSign cs
    let digits ← whole? body
    if negative then
      (Numeral.value? 10 (greatestInteger + 1) digits).map fun value => -Int.ofNat value
    else (Numeral.value? 10 greatestInteger digits).map Int.ofNat

/-- The exponent of a float: sign and digits, which may start with zeros. -/
def exponentDigits? (cs : List Char) : Option (List Char) :=
  let digits := (splitSign cs).2
  let sign := cs.take (cs.length - digits.length)
  (ungroup? Numeral.isDigit false digits).map (sign ++ ·)

def isExponentMark (c : Char) : Bool :=
  c == 'e' || c == 'E'

/-- A fraction or an exponent or both follow the whole part of a float. -/
def floatTail? (cs : List Char) : Option (List Char) :=
  match cs with
  | '.' :: rest => do
    let fraction ← ungroup? Numeral.isDigit false (rest.takeWhile fun c => !isExponentMark c)
    match rest.dropWhile fun c => !isExponentMark c with
    | [] => some ('.' :: fraction)
    | mark :: rest => (exponentDigits? rest).map fun digits => '.' :: fraction ++ mark :: digits
  | mark :: rest =>
    if isExponentMark mark then (exponentDigits? rest).map (mark :: ·) else none
  | [] => none

/-- A number with a fraction or an exponent, or `inf` or `nan`. One that rounds to infinity is
refused when it is positive. -/
def float? (cs : List Char) : Option Binary :=
  let (negative, body) := splitSign cs
  if body = "inf".toList then some (.infinite negative)
  else if body = "nan".toList then some .nan
  else do
    let isWhole := fun (c : Char) => c != '.' && !isExponentMark c
    let digits ← whole? (body.takeWhile isWhole)
    let tail ← floatTail? (body.dropWhile isWhole)
    let sign := if negative then ['-'] else []
    let value ← Binary.ofText? .double (sign ++ digits ++ tail)
    if value = .infinite false then none else some value

/-! ### Dates and times -/

/-- A number of just so many digits within limits. -/
def field? (count least greatest : Nat) (cs : List Char) : Option (Nat × List Char) := do
  let digits := cs.take count
  let value ← if digits.length = count then Numeral.bounded? greatest digits else none
  if least ≤ value then some (value, cs.drop count) else none

def mark? (mark : Char) : List Char → Option (List Char)
  | c :: rest => if c = mark then some rest else none
  | [] => none

def isLeap (year : Nat) : Bool :=
  year % 4 == 0 && (year % 100 != 0 || year % 400 == 0)

def daysIn (year month : Nat) : Nat :=
  if month = 2 then (if isLeap year then 29 else 28)
  else if month = 4 ∨ month = 6 ∨ month = 9 ∨ month = 11 then 30
  else 31

/-- A day of the calendar. -/
def date? (cs : List Char) : Option (List Char) := do
  let (year, cs) ← field? 4 0 9999 cs
  let cs ← mark? '-' cs
  let (month, cs) ← field? 2 1 12 cs
  let cs ← mark? '-' cs
  let (_, cs) ← field? 2 1 (daysIn year month) cs
  some cs

/-- A time of day; a minute may have a leap second, and a second a fraction. -/
def time? (cs : List Char) : Option (List Char) := do
  let (_, cs) ← field? 2 0 23 cs
  let cs ← mark? ':' cs
  let (_, cs) ← field? 2 0 59 cs
  let cs ← mark? ':' cs
  let (_, cs) ← field? 2 0 60 cs
  match cs with
  | '.' :: rest =>
    if (rest.takeWhile Numeral.isDigit).isEmpty then none
    else some (rest.dropWhile Numeral.isDigit)
  | cs => some cs

/-- How far a time is from universal time, or nothing. -/
def offset? (cs : List Char) : Option Unit :=
  match cs with
  | [] => some ()
  | sign :: rest =>
    if (sign == 'Z' || sign == 'z') && rest.isEmpty then some ()
    else if sign == '+' || sign == '-' then do
      let (_, cs) ← field? 2 0 23 rest
      let cs ← mark? ':' cs
      let (_, cs) ← field? 2 0 59 cs
      if cs.isEmpty then some () else none
    else none

/-- A time with its offset. -/
def timeOfDate? (cs : List Char) : Option Unit :=
  (time? cs).bind offset?

/-- A day, a day and a time, or a time alone. -/
def moment? (cs : List Char) : Option Unit :=
  match date? cs with
  | some [] => some ()
  | some (mark :: rest) => if mark == 'T' || mark == 't' then timeOfDate? rest else none
  | none => (time? cs).bind fun cs => if cs.isEmpty then some () else none

/-- Whether a run is a day alone, which a time may follow after one space. -/
def isDate (cs : List Char) : Bool :=
  date? cs == some []

/-- Whether a run begins like a time. -/
def looksLikeTime (cs : List Char) : Bool :=
  ((field? 2 0 23 cs).bind fun (_, cs) => mark? ':' cs).isSome

/-- The value that a run writes. -/
def ofRun? (cs : List Char) : Option Value :=
  if cs = "true".toList then some (.boolean true)
  else if cs = "false".toList then some (.boolean false)
  else if (moment? cs).isSome then some .moment
  else
    match float? cs with
    | some value => some (.float value)
    | none => (integer? cs).map .integer

/-- Reads a run, and after a day and a space the time that belongs to it. -/
def read? (cs : List Char) : Option (Value × List Char) :=
  let run := cs.takeWhile isPart
  let rest := cs.dropWhile isPart
  match rest with
  | ' ' :: after =>
    let next := after.takeWhile isPart
    if isDate run && looksLikeTime next then
      (timeOfDate? next).map fun _ => (.moment, after.dropWhile isPart)
    else (ofRun? run).map fun value => (value, rest)
  | _ => (ofRun? run).map fun value => (value, rest)

end Overlay.Toml.Scalar
