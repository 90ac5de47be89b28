/-!
# Sets of characters as ranges

A character property beyond ASCII is a list of inclusive code point ranges in ascending order.
-/

namespace UnitCompiler.Text

abbrev Ranges := List (Nat × Nat)

def Ranges.contains (ranges : Ranges) (c : Char) : Bool :=
  ranges.any fun range => range.1 ≤ c.toNat && c.toNat ≤ range.2

end UnitCompiler.Text
