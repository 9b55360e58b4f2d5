/-! Blank characters and the text between them. Trimming removes every character with the Unicode
White_Space property, which is wider than the ASCII blanks and narrower than "looks empty": a
zero-width space or a byte order mark is not blank. -/
namespace Overlay.Text

/-- The White_Space property of the Unicode character database: twenty-five characters. -/
def isBlank (c : Char) : Bool :=
  let n := c.toNat
  (0x09 ≤ n && n ≤ 0x0D) || n == 0x20 || n == 0x85 || n == 0xA0 || n == 0x1680 ||
    (0x2000 ≤ n && n ≤ 0x200A) || n == 0x2028 || n == 0x2029 || n == 0x202F || n == 0x205F ||
    n == 0x3000

def trimStart (cs : List Char) : List Char :=
  cs.dropWhile isBlank

def trimEnd (cs : List Char) : List Char :=
  (cs.reverse.dropWhile isBlank).reverse

/-- The text without the blanks at both ends. -/
def trim (cs : List Char) : List Char :=
  trimEnd (trimStart cs)

/-- Nothing but blanks. -/
def allBlank (cs : List Char) : Bool :=
  cs.all isBlank

/-- Letters `A` to `Z` become small; every other character stays, also a capital outside ASCII. -/
def lower (cs : List Char) : List Char :=
  cs.map Char.toLower

end Overlay.Text
