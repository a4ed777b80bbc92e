/-!
# Classes of characters

A class of characters is a list of closed ranges of code points.
-/

namespace Nomenclature.Text

abbrev CharRanges := List (Nat × Nat)

def CharRanges.holds (ranges : CharRanges) (c : Char) : Bool :=
  ranges.any fun range => range.1 ≤ c.toNat && c.toNat ≤ range.2

end Nomenclature.Text
