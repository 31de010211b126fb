import CodeColor.Text.Range

/-! White space: the characters that separate words and that trimming removes. -/

namespace CodeColor.Text

/-- Tab to carriage return, the four separators below the space, the space, and the wide spaces. A
zero-width space and a byte order mark are no white space. -/
def blankRanges : Ranges :=
  [(9, 0xD), (0x1C, 0x20), (0x85, 0x85), (0xA0, 0xA0), (0x1680, 0x1680), (0x2000, 0x200A),
   (0x2028, 0x2029), (0x202F, 0x202F), (0x205F, 0x205F), (0x3000, 0x3000)]

def isBlank (c : Char) : Bool :=
  blankRanges.holds c.toNat

/-- The text without the characters at its two ends of which the test holds. -/
def trimEnds (isSpace : Char → Bool) (text : List Char) : List Char :=
  ((text.dropWhile isSpace).reverse.dropWhile isSpace).reverse

def trim (text : List Char) : List Char :=
  trimEnds isBlank text

end CodeColor.Text
