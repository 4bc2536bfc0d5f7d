/-!
# Classes of characters as ranges

A class of characters is kept as closed ranges of codes.
-/

namespace CppPrinter

/-- Membership of a character in closed ranges of codes. -/
def inRanges (ranges : List (Nat × Nat)) (c : Char) : Bool :=
  ranges.any fun r => decide (r.1 ≤ c.toNat) && decide (c.toNat ≤ r.2)

end CppPrinter
