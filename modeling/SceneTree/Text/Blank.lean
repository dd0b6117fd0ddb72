import SceneTree.Text.Ranges

/-!
# Blanks around a numeral

A numeral may stand between blanks. Among the ASCII characters these are the space and the five controls from the
tabulator to the carriage return; beyond ASCII, every space and separator of Unicode 14.
-/

namespace SceneTree.Text

/-- The blanks. -/
def blankRanges : Ranges :=
  [(0x9, 0xD), (0x20, 0x20), (0x85, 0x85), (0xA0, 0xA0), (0x1680, 0x1680), (0x2000, 0x200A), (0x2028, 0x2029),
   (0x202F, 0x202F), (0x205F, 0x205F), (0x3000, 0x3000)]

/-- Whether a character is a blank. -/
def isBlank (c : Char) : Bool := blankRanges.has c.toNat

end SceneTree.Text
