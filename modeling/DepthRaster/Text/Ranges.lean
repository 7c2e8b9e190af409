/-!
# Ranges of characters

Classes of characters as lists of code point ranges.
-/

namespace DepthRaster.Text

/-- Code points from a first to a last one, for each pair. -/
abbrev Ranges := List (Nat × Nat)

def Ranges.contains (ranges : Ranges) (c : Char) : Bool :=
  ranges.any fun (first, last) => decide (first ≤ c.toNat) && decide (c.toNat ≤ last)

end DepthRaster.Text
