/-!
# Character classes as sorted ranges

A class of characters is a list of closed code point ranges, in increasing order and apart from
one another. Membership walks the list and stops at the first range that starts beyond the
character, so a question about an ASCII character looks at a handful of entries however long the
table is.
-/

namespace QueryBook.Text

/-- Closed ranges of code points, increasing and disjoint. -/
abbrev Ranges := List (Nat × Nat)

/-- Whether the code point `n` lies in one of the ranges. -/
def Ranges.contains : Ranges → Nat → Bool
  | [], _ => false
  | (lo, hi) :: rest, n => if n < lo then false else if n ≤ hi then true else Ranges.contains rest n

end QueryBook.Text
