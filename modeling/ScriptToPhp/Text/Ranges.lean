/-!
# Sets of code points

A property of characters is given by the ranges of code points that have it.
-/

namespace ScriptToPhp.Text

abbrev CodeRanges := List (Nat × Nat)

def CodeRanges.has (ranges : CodeRanges) (c : Char) : Bool :=
  ranges.any fun range => range.1 ≤ c.toNat && c.toNat ≤ range.2

end ScriptToPhp.Text
