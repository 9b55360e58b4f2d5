/-! Numerals. A number is written with the fewest digits of its base; it is read from digits alone,
and a reader that has a limit refuses what exceeds it instead of wrapping around. -/
namespace Overlay.Numeral

/-- Decimal digits without a leading zero, `0` for zero. -/
def decimal (n : Nat) : List Char :=
  Nat.toDigits 10 n

def isDigit (c : Char) : Bool :=
  '0' ≤ c && c ≤ '9'

/-- The value of a hexadecimal digit, capital or small. -/
def hexDigit? (c : Char) : Option Nat :=
  if '0' ≤ c ∧ c ≤ '9' then some (c.toNat - '0'.toNat)
  else if 'a' ≤ c ∧ c ≤ 'f' then some (c.toNat - 'a'.toNat + 10)
  else if 'A' ≤ c ∧ c ≤ 'F' then some (c.toNat - 'A'.toNat + 10)
  else none

/-- One more digit at the end of a number. A character that is no digit of the base ends it all, and
so does a number past the limit, which no further digit brings back. -/
def append? (base limit : Nat) (total : Option Nat) (c : Char) : Option Nat :=
  match total, hexDigit? c with
  | some n, some d => if d < base ∧ base * n + d ≤ limit then some (base * n + d) else none
  | _, _ => none

/-- The number up to a limit that a run of digits writes in a base, every character a digit of that
base. Leading zeros are digits like others. -/
def value? (base limit : Nat) (digits : List Char) : Option Nat :=
  digits.foldl (append? base limit) (some 0)

/-- A decimal number without a sign, up to a limit. -/
def bounded? (limit : Nat) (digits : List Char) : Option Nat :=
  if digits.isEmpty then none else value? 10 limit digits

/-- The value of a decimal digit. -/
def digitValue (c : Char) : Nat :=
  c.toNat - '0'.toNat

/-- The number that decimal digits write. -/
def ofDigits (digits : List Char) : Nat :=
  digits.foldl (fun n c => 10 * n + digitValue c) 0

/-- A decimal number up to a limit that may carry one plus sign. -/
def signedBounded? (limit : Nat) : List Char → Option Nat
  | '+' :: digits => bounded? limit digits
  | digits => bounded? limit digits

/-- The greatest number of thirty-two bits. -/
def max32 : Nat := 4294967295

/-- The greatest number of sixty-four bits. -/
def max64 : Nat := 18446744073709551615

/-- A digit of base sixteen, small letters. -/
def hexChar (n : Nat) : Char :=
  if n < 10 then Char.ofNat ('0'.toNat + n) else Char.ofNat ('a'.toNat + (n - 10))

end Overlay.Numeral
