import Nomenclature.Text.CharRange

/-!
# Blank characters

The characters that count as white space at the ends of a setting: the ASCII controls that
separate, the plain space, and the spaces and separators outside ASCII.
-/

namespace Nomenclature.Text

def blankRanges : CharRanges := [
  (0x9, 0xD), (0x1C, 0x20), (0x85, 0x85), (0xA0, 0xA0), (0x1680, 0x1680), (0x2000, 0x200A),
  (0x2028, 0x2029), (0x202F, 0x202F), (0x205F, 0x205F), (0x3000, 0x3000)]

def isBlank (c : Char) : Bool :=
  blankRanges.holds c

/-- The text without the blanks at its two ends. -/
def trimmed (cs : List Char) : List Char :=
  ((cs.dropWhile isBlank).reverse.dropWhile isBlank).reverse

end Nomenclature.Text
