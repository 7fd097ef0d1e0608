/-!
# Ranges of code points

Character classes of the Unicode character database are kept as tables of ranges. A table is in
increasing order, so that a search ends at the first range above the code point it looks for.
-/

namespace SiteRouter.Text

/-- Ranges of code points with both ends included, disjoint and in increasing order. -/
abbrev CodeRanges := List (Nat × Nat)

/-- Whether the code point lies in one of the ranges. -/
def CodeRanges.covers : CodeRanges → Nat → Bool
  | [], _ => false
  | (lo, hi) :: rest, n =>
    if n < lo then false else if n ≤ hi then true else CodeRanges.covers rest n

end SiteRouter.Text
