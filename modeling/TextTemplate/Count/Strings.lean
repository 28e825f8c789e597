import TextTemplate.Count.Checked

/-!
# Counting strings over a set

There are `base ^ length` strings of a length over `base` members, and the lengths of a
repetition form an interval.
-/

namespace TextTemplate

/-- The sum of some powers of a base, and the exponent of the next one. -/
structure PowerSum where
  exponent : Nat
  sum : Nat
deriving DecidableEq, Repr

namespace PowerSum

/-- Adds the next power. -/
def addPower (base : Nat) (state : PowerSum) : Except CountFault PowerSum :=
  match Counted.pow base state.exponent with
  | .error fault => .error fault
  | .ok power =>
      match Counted.add state.sum power with
      | .error fault => .error fault
      | .ok total => .ok ⟨state.exponent + 1, total⟩

/-- Adds the next powers, so many of them, one after the other. -/
def addPowers (base : Nat) : (terms : Nat) → PowerSum → Except CountFault PowerSum
  | 0, state => .ok state
  | terms + 1, state =>
      match addPower base state with
      | .error fault => .error fault
      | .ok later => addPowers base terms later

end PowerSum

/-- How many strings over `base` members have a length from `low` to `high`. -/
def countStrings (base low high : Nat) : Counted :=
  match base with
  | 0 => .ok (if low = 0 then 1 else 0)
  | 1 => .ok (high - low + 1)
  | _ => (PowerSum.addPowers base (high + 1 - low) ⟨low, 0⟩).map PowerSum.sum

end TextTemplate
