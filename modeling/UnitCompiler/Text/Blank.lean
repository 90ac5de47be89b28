import UnitCompiler.Text.Ranges

/-!
# Blank characters

The characters with the Unicode property White_Space, and texts without them at either end.
-/

namespace UnitCompiler.Text

def blankRanges : Ranges :=
  [(0x09, 0x0d), (0x20, 0x20), (0x85, 0x85), (0xa0, 0xa0), (0x1680, 0x1680), (0x2000, 0x200a),
   (0x2028, 0x2029), (0x202f, 0x202f), (0x205f, 0x205f), (0x3000, 0x3000)]

def isBlank (c : Char) : Bool :=
  blankRanges.contains c

/-- Drops the characters satisfying `p` at both ends. -/
def stripBy (p : Char → Bool) (text : List Char) : List Char :=
  ((text.dropWhile p).reverse.dropWhile p).reverse

def strip (text : List Char) : List Char :=
  stripBy isBlank text

end UnitCompiler.Text
