/-
Sets of characters as ranges of code points.

A property of characters is kept as a list of closed ranges, in ascending
order and with a gap between each two, so that every set has one list.
-/
namespace MaterialScript.Text

/-- Closed ranges of code points: first and last. -/
abbrev Ranges := List (Nat × Nat)

namespace Ranges

/-- The character lies in one of the ranges. -/
def contains (ranges : Ranges) (c : Char) : Bool :=
  ranges.any fun (first, last) => first ≤ c.toNat && c.toNat ≤ last

end Ranges

end MaterialScript.Text
