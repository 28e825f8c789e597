import TextTemplate.Text.WordSize

/-!
# Checked counting

Counts live in double words.  A sum or product that does not fit is a fault, also when it is
only an intermediate result.
-/

namespace TextTemplate

/-- Why the outcomes of a tree cannot be counted. -/
inductive CountFault where
  /-- The values bound to a name are not known. -/
  | reference (name : List Char)
  /-- An operand of a permutation is more than a literal or a character set. -/
  | compositeOperand
  /-- The count does not fit in a double word. -/
  | overflow
deriving DecidableEq, Repr

namespace CountFault

/-- The words for a fault. -/
def message : CountFault → String
  | .reference name =>
      "cannot count outcomes of external source $\x7b" ++ String.ofList name ++ "\x7d"
  | .compositeOperand =>
      "permutation counts are only supported over literal and character class operands"
  | .overflow => "outcome count does not fit in 128 bits"

end CountFault

/-- A count, or why there is none. -/
abbrev Counted := Except CountFault Nat

namespace Counted

/-- A number that has to fit. -/
def fit (number : Nat) : Counted :=
  if number < doubleWordSize then .ok number else .error .overflow

def add (first second : Nat) : Counted := fit (first + second)

def mul (first second : Nat) : Counted := fit (first * second)

/-- Multiplies a product by a base so many times. -/
def powFrom (base : Nat) : (times product : Nat) → Counted
  | 0, product => .ok product
  | times + 1, product =>
      match mul product base with
      | .error fault => .error fault
      | .ok product => powFrom base times product

/-- A power, whose exponent has to fit in half a word. -/
def pow (base exponent : Nat) : Counted :=
  if exponent < halfWordSize then powFrom base exponent 1 else .error .overflow

@[simp]
theorem fit_eq_ok_iff {number value : Nat} :
    fit number = .ok value ↔ number = value ∧ number < doubleWordSize := by
  unfold fit
  by_cases fits : number < doubleWordSize
  · simp [fits]
  · simp [fits]

end Counted

end TextTemplate
