/-! Lengths of time and the clock that measures them. A length is exact: seconds and nanoseconds.
Ages are compared in whole milliseconds, and a length is turned into that unit in one place only. A
reading of a clock has sixty-four bits: past the largest one it wraps around, and so does a length.
-/
namespace Overlay

/-- A length of time. -/
structure Duration where
  secs : Nat
  nanos : Nat := 0
  deriving DecidableEq, Repr, Inhabited

/-- A reading of a clock: milliseconds since 1970. -/
abbrev Millis := UInt64

/-- How many milliseconds lie between a stamp and the present; none when the stamp is later. -/
def ageAt (now stamp : Millis) : Nat :=
  now.toNat - stamp.toNat

namespace Duration

/-- Nanoseconds past a whole second carry over. -/
def ofParts (secs nanos : Nat) : Duration :=
  ⟨secs + nanos / 1000000000, nanos % 1000000000⟩

def ofMillis (millis : Nat) : Duration :=
  ⟨millis / 1000, millis % 1000 * 1000000⟩

/-- Sixty-four bits of whole milliseconds: what is left of a millisecond is dropped, and so is what
exceeds sixty-four bits. -/
def wholeMillis (d : Duration) : Millis :=
  UInt64.ofNat (d.secs * 1000 + d.nanos / 1000000)

end Duration

/-- A clock that moves only when told to. -/
structure Clock where
  reading : Millis
  deriving DecidableEq, Repr

namespace Clock

/-- Moves on, around the end of sixty-four bits. -/
def advance (clock : Clock) (step : Duration) : Clock :=
  ⟨clock.reading + step.wholeMillis⟩

def set (_ : Clock) (reading : Millis) : Clock :=
  ⟨reading⟩

end Clock
end Overlay
