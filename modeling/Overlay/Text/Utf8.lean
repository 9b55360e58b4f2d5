/-! Text as octets. Writing a character gives one to four octets; reading refuses at the first octet
that no text can hold and says where, and it tells an octet that is wrong from an end that comes too
early. Only the shortest form of a character is text, and a surrogate is none. -/
namespace Overlay

/-- Octets, as a file or a store entry holds them. -/
abbrev Bytes := List UInt8

namespace Text.Utf8

/-- A continuation octet carrying the low six bits of a number. -/
def tail (n : Nat) : UInt8 :=
  UInt8.ofNat (0x80 + n % 0x40)

def encodeChar (c : Char) : Bytes :=
  let n := c.toNat
  if n < 0x80 then [UInt8.ofNat n]
  else if n < 0x800 then [UInt8.ofNat (0xC0 + n / 0x40), tail n]
  else if n < 0x10000 then [UInt8.ofNat (0xE0 + n / 0x1000), tail (n / 0x40), tail n]
  else [UInt8.ofNat (0xF0 + n / 0x40000), tail (n / 0x1000), tail (n / 0x40), tail n]

def encode (cs : List Char) : Bytes :=
  cs.flatMap encodeChar

/-- Why octets are no text. The position is that of the first octet of the character at fault. -/
inductive Fault where
  /-- Octets that begin no character, and how many of them are ruled out together. -/
  | invalid (position count : Nat)
  /-- The end falls inside a character that is fine so far. -/
  | incomplete (position : Nat)
  deriving DecidableEq, Repr

def Fault.message : Fault → String
  | .invalid position count =>
    "invalid utf-8 sequence of " ++ toString count ++ " bytes from index " ++ toString position
  | .incomplete position =>
    "incomplete utf-8 byte sequence from index " ++ toString position

def isTail (b : UInt8) : Bool :=
  0x80 ≤ b && b ≤ 0xBF

/-- Which second octets a first octet of a three-octet character admits: the others would write a
shorter character or a surrogate. -/
def second3 (a b : UInt8) : Bool :=
  if a == 0xE0 then 0xA0 ≤ b && b ≤ 0xBF
  else if a == 0xED then 0x80 ≤ b && b ≤ 0x9F
  else isTail b

/-- Which second octets a first octet of a four-octet character admits: the others would write a
shorter character or go past the last one. -/
def second4 (a b : UInt8) : Bool :=
  if a == 0xF0 then 0x90 ≤ b && b ≤ 0xBF
  else if a == 0xF4 then 0x80 ≤ b && b ≤ 0x8F
  else isTail b

def join2 (a b : UInt8) : Char :=
  Char.ofNat ((a.toNat - 0xC0) * 0x40 + (b.toNat - 0x80))

def join3 (a b c : UInt8) : Char :=
  Char.ofNat ((a.toNat - 0xE0) * 0x1000 + (b.toNat - 0x80) * 0x40 + (c.toNat - 0x80))

def join4 (a b c d : UInt8) : Char :=
  Char.ofNat ((a.toNat - 0xF0) * 0x40000 + (b.toNat - 0x80) * 0x1000 +
    (c.toNat - 0x80) * 0x40 + (d.toNat - 0x80))

/-- Reads on at a position, the characters so far collected backwards. -/
def decodeFrom (position : Nat) (done : List Char) : Bytes → Except Fault (List Char)
  | [] => .ok done.reverse
  | a :: rest =>
    if a < 0x80 then decodeFrom (position + 1) (Char.ofNat a.toNat :: done) rest
    else if 0xC2 ≤ a && a ≤ 0xDF then
      match rest with
      | [] => .error (.incomplete position)
      | b :: rest =>
        if isTail b then decodeFrom (position + 2) (join2 a b :: done) rest
        else .error (.invalid position 1)
    else if 0xE0 ≤ a && a ≤ 0xEF then
      match rest with
      | [] => .error (.incomplete position)
      | b :: rest =>
        if second3 a b then
          match rest with
          | [] => .error (.incomplete position)
          | c :: rest =>
            if isTail c then decodeFrom (position + 3) (join3 a b c :: done) rest
            else .error (.invalid position 2)
        else .error (.invalid position 1)
    else if 0xF0 ≤ a && a ≤ 0xF4 then
      match rest with
      | [] => .error (.incomplete position)
      | b :: rest =>
        if second4 a b then
          match rest with
          | [] => .error (.incomplete position)
          | c :: rest =>
            if isTail c then
              match rest with
              | [] => .error (.incomplete position)
              | d :: rest =>
                if isTail d then decodeFrom (position + 4) (join4 a b c d :: done) rest
                else .error (.invalid position 3)
            else .error (.invalid position 2)
        else .error (.invalid position 1)
    else .error (.invalid position 1)

def decode (bytes : Bytes) : Except Fault (List Char) :=
  decodeFrom 0 [] bytes

/-- The text of octets, if they are one. -/
def decode? (bytes : Bytes) : Option (List Char) :=
  (decode bytes).toOption

end Text.Utf8

/-- The octets of a string. -/
def octets (text : String) : Bytes :=
  Text.Utf8.encode text.toList

end Overlay
