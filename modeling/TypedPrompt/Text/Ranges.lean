/-
# `Text.Ranges` — sets of code points as ascending ranges

A character class of the Unicode standard is data: a list of ranges of code
points, both ends included, ascending and disjoint.  This file holds the
membership test that all the class tables share.  Because the ranges ascend,
the first one that reaches up to a code point decides, and the classes of plain
text are settled by the first few entries.
-/

namespace TypedPrompt.Text

/-- A set of code points, listed as ascending ranges with both ends included. -/
abbrev Ranges := List (Nat × Nat)

/-- Membership in an ascending list of ranges: the first range that ends at or
after `n` decides. -/
def Ranges.contains : Ranges → Nat → Bool
  | [], _ => false
  | (low, high) :: rest, n => if n ≤ high then decide (low ≤ n) else contains rest n

end TypedPrompt.Text
