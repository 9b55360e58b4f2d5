import Overlay.Duration
import Overlay.Number.Numeral
import Overlay.Text.Blank

/-! Lengths of time in words, such as `1h 30m`: numbers with units, added up. A number may have a
fraction as long as it comes out whole in the unit's finest part, and blanks may stand anywhere
between and inside numbers. Nothing wraps: a part or a sum that exceeds sixty-four bits is refused.
-/
namespace Overlay.Duration.Phrase

/-- Units of time. -/
inductive TimeUnit where
  | nanosecond
  | microsecond
  | millisecond
  | second
  | minute
  | hour
  | day
  | week
  /-- A twelfth of a year. -/
  | month
  /-- Three hundred sixty-five days and a quarter. -/
  | year
  deriving DecidableEq, Repr

/-- The unit with a name; capitals matter. -/
def TimeUnit.ofName? (name : List Char) : Option TimeUnit :=
  let name := String.ofList name
  if ["nanos", "nsec", "ns"].contains name then some .nanosecond
  else if ["usec", "us", "µs"].contains name then some .microsecond
  else if ["millis", "msec", "ms"].contains name then some .millisecond
  else if ["seconds", "second", "secs", "sec", "s"].contains name then some .second
  else if ["minutes", "minute", "min", "mins", "m"].contains name then some .minute
  else if ["hours", "hour", "hr", "hrs", "h"].contains name then some .hour
  else if ["days", "day", "d"].contains name then some .day
  else if ["weeks", "week", "wk", "wks", "w"].contains name then some .week
  else if ["months", "month", "M"].contains name then some .month
  else if ["years", "year", "yr", "yrs", "y"].contains name then some .year
  else none

/-- How many nanoseconds a unit below the second has. -/
def TimeUnit.nanos? : TimeUnit → Option Nat
  | .nanosecond => some 1
  | .microsecond => some 1000
  | .millisecond => some 1000000
  | _ => none

/-- How many whole seconds a unit from the second on has. -/
def TimeUnit.secs : TimeUnit → Nat
  | .nanosecond | .microsecond | .millisecond => 0
  | .second => 1
  | .minute => 60
  | .hour => 3600
  | .day => 86400
  | .week => 604800
  | .month => 2630016
  | .year => 31557600

/-- The unit of a fraction's result: nanoseconds up to the minute, seconds from the hour on. A
nanosecond has no fraction. -/
def TimeUnit.fractionNanos? : TimeUnit → Option Nat
  | .microsecond => some 1000
  | .millisecond => some 1000000
  | .second => some 1000000000
  | .minute => some 60000000000
  | _ => none

def TimeUnit.fractionSecs? : TimeUnit → Option Nat
  | .hour => some 3600
  | .day => some 86400
  | .week => some 604800
  | .month => some 2630016
  | .year => some 31557600
  | _ => none

/-- A result within sixty-four bits. -/
def fits? (n : Nat) : Option Nat :=
  if n ≤ Numeral.max64 then some n else none

/-- Adds seconds and nanoseconds to a sum. -/
def add? (sum : Duration) (secs nanos : Nat) : Option Duration := do
  let nanos ← fits? (sum.nanos + nanos)
  let secs ← fits? (sum.secs + secs + nanos / 1000000000)
  some ⟨secs, nanos % 1000000000⟩

/-- What follows the point of a number, over a power of ten. -/
structure Fraction where
  numerator : Nat := 0
  denominator : Nat := 1
  deriving DecidableEq, Repr

def Fraction.append? (fraction : Fraction) (digit : Nat) : Option Fraction := do
  let denominator ← fits? (fraction.denominator * 10)
  let numerator ← fits? (fraction.numerator * 10 + digit)
  some ⟨numerator, denominator⟩

/-- So many parts of the fraction, when that is a whole number. -/
def Fraction.of? (fraction : Fraction) (parts : Nat) : Option Nat := do
  let product ← fits? (fraction.numerator * parts)
  if product % fraction.denominator = 0 then some (product / fraction.denominator) else none

/-- Adds the fraction of a unit. -/
def addFraction? (sum : Duration) (unit : TimeUnit) (fraction : Fraction) : Option Duration :=
  match unit.fractionNanos?, unit.fractionSecs? with
  | some parts, _ => (fraction.of? parts).bind fun nanos => add? sum 0 nanos
  | _, some parts => (fraction.of? parts).bind fun secs => add? sum secs 0
  | none, none => none

/-- Adds a number of units. -/
def addPart? (sum : Duration) (number : Nat) (fraction : Option Fraction) (unit : List Char) :
    Option Duration := do
  let unit ← TimeUnit.ofName? unit
  let sum ← match unit.nanos? with
    | some nanos => (fits? (number * nanos)).bind fun nanos => add? sum 0 nanos
    | none => (fits? (number * unit.secs)).bind fun secs => add? sum secs 0
  match fraction with
  | some fraction => addFraction? sum unit fraction
  | none => some sum

def isUnitChar (c : Char) : Bool :=
  ('a' ≤ c && c ≤ 'z') || ('A' ≤ c && c ≤ 'Z') || c == 'µ'

/-- Where the reader stands. -/
inductive Inside where
  /-- Before a number. -/
  | between
  | whole (number : Nat)
  | fraction (number : Nat) (fraction : Fraction)
  /-- Inside a unit, its letters backwards. -/
  | unit (number : Nat) (fraction : Option Fraction) (letters : List Char)
  deriving DecidableEq, Repr

/-- The value of a decimal digit. -/
def digit? (c : Char) : Option Nat :=
  if Numeral.isDigit c then some (Numeral.digitValue c) else none

/-- A fraction that has at least one digit. -/
def Fraction.closed? (fraction : Fraction) : Option Fraction :=
  if fraction.denominator = 1 then none else some fraction

/-- One character on; the sum changes where a unit ends. -/
def step? (sum : Duration) (inside : Inside) (c : Char) : Option (Duration × Inside) :=
  match inside with
  | .between =>
    match digit? c with
    | some digit => some (sum, .whole digit)
    | none => if Text.isBlank c then some (sum, .between) else none
  | .whole number =>
    match digit? c with
    | some digit => (fits? (10 * number + digit)).map fun number => (sum, .whole number)
    | none =>
      if Text.isBlank c then some (sum, .whole number)
      else if isUnitChar c then some (sum, .unit number none [c])
      else if c == '.' then some (sum, .fraction number {})
      else none
  | .fraction number fraction =>
    match digit? c with
    | some digit => (fraction.append? digit).map fun fraction => (sum, .fraction number fraction)
    | none =>
      if Text.isBlank c then some (sum, .fraction number fraction)
      else if isUnitChar c then
        fraction.closed?.map fun fraction => (sum, .unit number (some fraction) [c])
      else none
  | .unit number fraction letters =>
    match digit? c with
    | some digit =>
      (addPart? sum number fraction letters.reverse).map fun sum => (sum, .whole digit)
    | none =>
      if Text.isBlank c then
        (addPart? sum number fraction letters.reverse).map fun sum => (sum, .between)
      else if isUnitChar c then some (sum, .unit number fraction (c :: letters))
      else none

/-- Reads to the end, where a unit or nothing may be open. -/
def readFrom? (sum : Duration) (inside : Inside) (any : Bool) : List Char → Option Duration
  | [] =>
    match inside with
    | .between => if any then some sum else none
    | .unit number fraction letters => addPart? sum number fraction letters.reverse
    | _ => none
  | c :: rest =>
    match step? sum inside c with
    | some (sum, inside) => readFrom? sum inside (any || inside != .between) rest
    | none => none

/-- The length of time that a phrase names: at least one number with a unit, or a bare zero. -/
def parse? (text : String) : Option Duration :=
  if text == "0" then some ⟨0, 0⟩ else readFrom? ⟨0, 0⟩ .between false text.toList

end Overlay.Duration.Phrase
