/-!
# Sets of code points

A Unicode property is held as the increasing list of the intervals of code points that have
it.  Membership stops at the first interval that begins above the code point.
-/

namespace TextTemplate

/-- Intervals of code points, both ends included, in increasing order and without overlap. -/
abbrev CodePointRanges := List (Nat × Nat)

namespace CodePointRanges

/-- Whether one of the intervals holds the code point. -/
def covers : CodePointRanges → Nat → Bool
  | [], _ => false
  | (low, high) :: rest, code =>
      if code < low then false
      else if code ≤ high then true
      else covers rest code

end CodePointRanges

end TextTemplate
