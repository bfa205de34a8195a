import Colloquy.Text.CodePoints

/-!
# Blank characters

The blanks are the characters of Unicode's `White_Space` property.  They separate words everywhere
in the library: in expressions, utterances, literals and generated text.
-/

namespace Colloquy.Text

/-- The code points of `White_Space`. -/
def blankCodePoints : CodePoints :=
  [(0x9, 0xD), (0x20, 0x20), (0x85, 0x85), (0xA0, 0xA0), (0x1680, 0x1680), (0x2000, 0x200A),
   (0x2028, 0x2029), (0x202F, 0x202F), (0x205F, 0x205F), (0x3000, 0x3000)]

/-- A blank separates words. -/
def isBlank (c : Char) : Bool :=
  blankCodePoints.contains c

end Colloquy.Text
