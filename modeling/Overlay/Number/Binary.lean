import Overlay.Number.Numeral

/-! Binary floating point in exact arithmetic. A finite value is a whole number of units
`2 ^ exponent`, so every rounding here compares whole numbers and no step rounds twice. A value is
written with the fewest decimal digits that read back as it, of those the nearest, and always
positionally: a settings file and a terminal show `0.1`, never an exponent. -/
namespace Overlay

/-- A width of binary floating point: how many significant bits there are, and which units. -/
structure BinaryFormat where
  precision : Nat
  leastExponent : Int
  greatestExponent : Int
  deriving DecidableEq, Repr

namespace BinaryFormat

/-- Thirty-two bits. -/
def single : BinaryFormat := ⟨24, -149, 104⟩

/-- Sixty-four bits. -/
def double : BinaryFormat := ⟨53, -1074, 971⟩

end BinaryFormat

/-- A floating-point value. A finite one is `units * 2 ^ exponent` in its format's own form: as many
bits as the precision allows unless the exponent is the least. -/
inductive Binary where
  | nan
  | infinite (negative : Bool)
  | finite (negative : Bool) (units : Nat) (exponent : Int)
  deriving DecidableEq, Repr, Inhabited

namespace Binary

def isFinite : Binary → Bool
  | .finite .. => true
  | _ => false

/-- `base ^ power` for a power that is not negative, one otherwise. -/
def scaleUp (base : Nat) (power : Int) : Nat :=
  Nat.pow base power.toNat

/-- Two to a power. -/
def twoTo (power : Nat) : Nat :=
  Nat.pow 2 power

/-- The exponent of the leading bit of `num / den`. -/
def leadingExponent (num den : Nat) : Int :=
  let guess : Int := Int.ofNat num.log2 - Int.ofNat den.log2
  if num * scaleUp 2 (-guess) < den * scaleUp 2 guess then guess - 1 else guess

/-- `num / den` to the nearest whole number, a half to the even neighbour. -/
def nearest (num den : Nat) : Nat :=
  let whole := num / den
  let twice := 2 * (num % den)
  if den < twice || (twice == den && whole % 2 == 1) then whole + 1 else whole

/-- The value of a format nearest to `num / den`, a tie to the even one. What rounds past the
greatest finite value is infinite. -/
def ofRatio (format : BinaryFormat) (negative : Bool) (num den : Nat) : Binary :=
  if num == 0 then .finite negative 0 format.leastExponent
  else
    let wanted := leadingExponent num den - (Int.ofNat format.precision - 1)
    let exponent := if wanted < format.leastExponent then format.leastExponent else wanted
    let units := nearest (num * scaleUp 2 (-exponent)) (den * scaleUp 2 exponent)
    let full := twoTo format.precision
    let units' := if units == full then units / 2 else units
    let exponent' := if units == full then exponent + 1 else exponent
    if format.greatestExponent < exponent' then .infinite negative
    else .finite negative units' exponent'

/-- Past this many decimal places from the point a value is infinite or zero in every format, so
that a hostile exponent costs nothing. -/
def widest : Int := 400

/-- The value of a format nearest to `digits * 10 ^ power`, given how many digits are written. -/
def ofDecimal (format : BinaryFormat) (negative : Bool) (digits count : Nat) (power : Int) :
    Binary :=
  if digits == 0 then .finite negative 0 format.leastExponent
  else if Int.ofNat count + power < -widest then .finite negative 0 format.leastExponent
  else if widest < Int.ofNat count + power then .infinite negative
  else ofRatio format negative (digits * scaleUp 10 power) (scaleUp 10 (-power))

/-- A value in another format. -/
def round (format : BinaryFormat) : Binary → Binary
  | .nan => .nan
  | .infinite negative => .infinite negative
  | .finite negative units exponent =>
    ofRatio format negative (units * scaleUp 2 exponent) (scaleUp 2 (-exponent))

/-- A whole number as a value of a format. -/
def ofInt (format : BinaryFormat) (n : Int) : Binary :=
  ofRatio format (decide (n < 0)) n.natAbs 1

/-! ### Reading -/

/-- Splits a run of digits off. -/
def takeDigits (cs : List Char) : List Char × List Char :=
  (cs.takeWhile Numeral.isDigit, cs.dropWhile Numeral.isDigit)

/-- The digits of an exponent count until the number they write reaches this; the ones after that
are passed over. No format comes near it, so this shows only where as many places stand against the
exponent. -/
def exponentBound : Nat := 65536

/-- One more digit of an exponent. -/
def appendExponent (n : Nat) (c : Char) : Nat :=
  if n < exponentBound then 10 * n + Numeral.digitValue c else n

/-- The exponent at the end of a numeral: `e` or `E`, one sign at most, digits. -/
def exponent? : List Char → Option Int
  | [] => some 0
  | mark :: rest =>
    if mark == 'e' || mark == 'E' then
      let negative := rest.head? == some '-'
      let digits := if negative || rest.head? == some '+' then rest.tail else rest
      if digits.isEmpty || !digits.all Numeral.isDigit then none
      else
        let n := Int.ofNat (digits.foldl appendExponent 0)
        some (if negative then -n else n)
    else none

/-- Significant digits that rounding can see. No tie between two neighbours of a format has as many,
so the digits after these only tell whether the value lies above the number of the first. -/
def visibleDigits : Nat := 800

/-- Digits cut down to what rounding can see, and how many places that took off. One digit stands
for all that are cut off, unless these are zeros. -/
def condense (digits : List Char) : List Char × Nat :=
  let rest := digits.drop visibleDigits
  if rest.all (· == '0') then (digits.take visibleDigits, rest.length)
  else (digits.take visibleDigits ++ ['1'], rest.length - 1)

/-- An unsigned numeral: digits, a point among them or at either end, then an exponent. At least one
digit is written. -/
def unsigned? (format : BinaryFormat) (negative : Bool) (cs : List Char) : Option Binary :=
  let (whole, rest) := takeDigits cs
  let (fraction, rest) := match rest with
    | '.' :: rest => takeDigits rest
    | rest => ([], rest)
  if whole.isEmpty && fraction.isEmpty then none
  else do
    let exponent ← exponent? rest
    let (digits, cut) := condense ((whole ++ fraction).dropWhile (· == '0'))
    let power := exponent - Int.ofNat fraction.length + Int.ofNat cut
    some (ofDecimal format negative (Numeral.ofDigits digits) digits.length power)

/-- A numeral with one sign at most, or one of the words `inf`, `infinity` and `nan` in capitals or
small letters. -/
def ofText? (format : BinaryFormat) (cs : List Char) : Option Binary :=
  let negative := cs.head? == some '-'
  let body := if negative || cs.head? == some '+' then cs.tail else cs
  let word := String.ofList (body.map Char.toLower)
  if word == "inf" || word == "infinity" then some (.infinite negative)
  else if word == "nan" then some .nan
  else unsigned? format negative body

/-! ### Writing -/

/-- Whether `num / den` lies among the numbers that round to `units * 2 ^ exponent`, the ends
counted when the units are even. Below a power of two the neighbour is half as far. -/
def roundsTo (format : BinaryFormat) (units : Nat) (exponent : Int) (num den : Nat) : Bool :=
  let narrow := units == twoTo (format.precision - 1) && decide (format.leastExponent < exponent)
  -- all in quarters of a unit
  let middle := 4 * units
  let low := if narrow then middle - 1 else middle - 2
  let high := middle + 2
  let up := scaleUp 2 (exponent - 2)
  let down := scaleUp 2 (2 - exponent)
  let value := num * down
  let lowEnd := low * up * den
  let highEnd := high * up * den
  if units % 2 == 0 then lowEnd ≤ value && value ≤ highEnd else lowEnd < value && value < highEnd

/-- A decimal grid with `10 ^ -places` between its points: of the two neighbours of
`num / den`, the one that reads back as the value, the nearer if both do, the upper at a tie. -/
def onGrid? (format : BinaryFormat) (units : Nat) (exponent : Int) (places : Int) : Option Nat :=
  let num := units * scaleUp 2 exponent * scaleUp 10 places
  let den := scaleUp 2 (-exponent) * scaleUp 10 (-places)
  let below := num / den
  let above := below + 1
  let reads := fun (point : Nat) => roundsTo format units exponent
    (point * scaleUp 10 (-places)) (scaleUp 10 places)
  let belowReads := reads below && below != 0
  let aboveReads := reads above
  if belowReads && aboveReads then
    if 2 * (num % den) < den then some below else some above
  else if belowReads then some below
  else if aboveReads then some above
  else none

/-- How many digits stand before the point, none or fewer for a small value: the least `k` with
`num / den < 10 ^ k`, searched upward. -/
def magnitude (num den : Nat) : Nat → Int → Int
  | 0, k => k
  | fuel + 1, k =>
    if num * scaleUp 10 (-k) < den * scaleUp 10 k then k else magnitude num den fuel (k + 1)

/-- The first grid, from one digit on, that has a point reading back as the value: its point and
its places. -/
def firstGrid (format : BinaryFormat) (units : Nat) (exponent before : Int) :
    Nat → Nat → Nat × Int
  | 0, _ => (0, 0)
  | fuel + 1, digits =>
    let places := Int.ofNat digits - before
    match onGrid? format units exponent places with
    | some point => (point, places)
    | none => firstGrid format units exponent before fuel (digits + 1)

/-- No value of a format here needs more decimal digits than this. -/
def mostDigits : Nat := 17

/-- The shortest decimal of a value above zero: `point * 10 ^ -places`. -/
def shortest (format : BinaryFormat) (units : Nat) (exponent : Int) : Nat × Int :=
  let num := units * scaleUp 2 exponent
  let den := scaleUp 2 (-exponent)
  let before := magnitude num den 800 (-widest)
  firstGrid format units exponent before mostDigits 1

/-- `point * 10 ^ -places` written out, without zeros at the end of a fraction. -/
def positional (point : Nat) (places : Int) : List Char :=
  let digits := Numeral.decimal point
  if places ≤ 0 then digits ++ List.replicate (-places).toNat '0'
  else
    let count := places.toNat
    let padded := List.replicate (count + 1 - digits.length) '0' ++ digits
    let whole := padded.take (padded.length - count)
    let fraction := padded.drop (padded.length - count)
    let kept := (fraction.reverse.dropWhile (· == '0')).reverse
    if kept.isEmpty then whole else whole ++ '.' :: kept

/-- A value as text: `NaN`, `inf`, or positional digits; a sign also before zero. -/
def text (format : BinaryFormat) : Binary → String
  | .nan => "NaN"
  | .infinite negative => if negative then "-inf" else "inf"
  | .finite negative units exponent =>
    let sign := if negative then ['-'] else []
    if units == 0 then String.ofList (sign ++ ['0'])
    else
      let (point, places) := shortest format units exponent
      String.ofList (sign ++ positional point places)

/-- A value as text that shows it is no whole number's: a point is written in every finite one. -/
def pointedText (format : BinaryFormat) (value : Binary) : String :=
  let text := value.text format
  if value.isFinite && !text.toList.contains '.' then text ++ ".0" else text

/-! ### Thirty-two bits as an integer -/

/-- The bit pattern of a single, none for a value that is no number. -/
def bits? : Binary → Option Nat
  | .nan => none
  | .infinite negative => some ((if negative then twoTo 31 else 0) + 0x7F800000)
  | .finite negative units exponent =>
    let sign := if negative then twoTo 31 else 0
    if units < twoTo 23 then some (sign + units)
    else some (sign + (exponent + 150).toNat * twoTo 23 + (units - twoTo 23))

/-- The single with a bit pattern. -/
def ofBits (pattern : Nat) : Binary :=
  let negative := pattern / twoTo 31 % 2 == 1
  let field := pattern / twoTo 23 % 256
  let fraction := pattern % twoTo 23
  if field == 255 then if fraction == 0 then .infinite negative else .nan
  else if field == 0 then .finite negative fraction (-149)
  else .finite negative (fraction + twoTo 23) (Int.ofNat field - 150)

/-- One. -/
def one : Binary := .finite false (twoTo 23) (-23)

/-- Zero without a sign. -/
def zero : Binary := .finite false 0 (-149)

end Binary
end Overlay
