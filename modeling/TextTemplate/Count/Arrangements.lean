import TextTemplate.Count.Checked

/-!
# Counting arrangements

The distinct arrangements of some characters are counted by a multinomial coefficient, made
from binomial coefficients that place one group of equal characters after the other.
-/

namespace TextTemplate

namespace Arrangements

/-- The lengths of the runs of equal characters, given the run being counted. -/
def runLengthsFrom (current : Char) (size : Nat) : List Char → List Nat
  | [] => [size]
  | next :: rest =>
      if next = current then runLengthsFrom current (size + 1) rest
      else size :: runLengthsFrom next 1 rest

/-- The lengths of the runs of equal characters. -/
def runLengths : List Char → List Nat
  | [] => []
  | first :: rest => runLengthsFrom first 1 rest

/-- How often each character occurs, in the order of the characters. -/
def groupSizes (text : List Char) : List Nat :=
  runLengths (text.mergeSort (· ≤ ·))

/--
Goes on with a binomial coefficient at a step: the next factor is multiplied in, and then the
step is divided out, which leaves no remainder.
-/
def binomialFrom (offset step : Nat) : (steps result : Nat) → Counted
  | 0, result => .ok result
  | steps + 1, result =>
      match Counted.mul result (offset + step) with
      | .error fault => .error fault
      | .ok product => binomialFrom offset (step + 1) steps (product / step)

/-- How many ways there are to choose `chosen` places out of `places`. -/
def binomial (places chosen : Nat) : Counted :=
  let smaller := min chosen (places - chosen)
  binomialFrom (places - smaller) 1 smaller 1

/-- Goes on with a multinomial coefficient when `placed` characters have their places. -/
def multinomialFrom (placed total : Nat) : List Nat → Counted
  | [] => .ok total
  | size :: rest =>
      match binomial (placed + size) size with
      | .error fault => .error fault
      | .ok ways =>
          match Counted.mul total ways with
          | .error fault => .error fault
          | .ok total => multinomialFrom (placed + size) total rest

/-- How many arrangements there are of groups of equal characters. -/
def multinomial (sizes : List Nat) : Counted := multinomialFrom 0 1 sizes

end Arrangements

/-- How many distinct arrangements the characters of a text have. -/
def countArrangements (text : List Char) : Counted :=
  Arrangements.multinomial (Arrangements.groupSizes text)

end TextTemplate
