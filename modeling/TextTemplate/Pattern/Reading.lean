import TextTemplate.Pattern.SyntaxError

/-!
# Reading the front of a text

A reader takes a value off the front of a text, or notices a fault.  A fault travels with the
text that was left at that moment, and its place in the pattern follows from the length of
that text.
-/

namespace TextTemplate

/-- A fault and the rest of the pattern, from the character where it was noticed. -/
structure Failure where
  fault : SyntaxFault
  remaining : List Char
deriving DecidableEq, Repr

namespace Failure

/-- The error for a failure in the pattern that was being read. -/
def locate (failure : Failure) (pattern : List Char) : SyntaxError :=
  ⟨failure.fault, .ofOffset pattern (pattern.length - failure.remaining.length)⟩

end Failure

/-- The outcome of reading the front of a text: a value and the text behind it, or a failure. -/
abbrev Reading (α : Type) := Except Failure (α × List Char)

namespace Reading

variable {ε α β : Type}

/-- A changed result comes from a result before the change. -/
theorem map_eq_ok_iff {result : Except ε α} {change : α → β} {value : β} :
    result.map change = .ok value ↔ ∃ before, result = .ok before ∧ change before = value := by
  cases result <;> simp [Except.map]

/-- A result that goes on comes from a result and from what goes on with it. -/
theorem bind_eq_ok_iff {result : Except ε α} {next : α → Except ε β} {value : β} :
    result.bind next = .ok value ↔ ∃ before, result = .ok before ∧ next before = .ok value := by
  cases result <;> simp [Except.bind]

end Reading

/-- A reading that succeeds leaves at most `bound` characters. -/
def LeavesAtMost {α : Type} (bound : Nat) (reading : Reading α) : Prop :=
  ∀ value after, reading = .ok (value, after) → after.length ≤ bound

namespace LeavesAtMost

variable {α β : Type} {bound smaller : Nat} {reading : Reading α}

theorem error (failure : Failure) : LeavesAtMost (α := α) bound (.error failure) :=
  fun _ _ impossible => nomatch impossible

theorem ok {value : α} {after : List Char} (fits : after.length ≤ bound) :
    LeavesAtMost bound (.ok (value, after)) := by
  intro _ _ same
  cases same
  exact fits

theorem mono (leaves : LeavesAtMost smaller reading) (le : smaller ≤ bound) :
    LeavesAtMost bound reading :=
  fun value after same => Nat.le_trans (leaves value after same) le

theorem map {change : α × List Char → β × List Char}
    (leaves : LeavesAtMost bound reading)
    (keeps : ∀ value after, (change (value, after)).2 = after) :
    LeavesAtMost bound (reading.map change) := by
  intro value after same
  cases reading with
  | error failure => cases same
  | ok pair =>
      have image : change pair = (value, after) := Except.ok.inj same
      have kept : (change pair).2 = pair.2 := keeps pair.1 pair.2
      rw [image] at kept
      have fits := leaves pair.1 pair.2 rfl
      rwa [← kept] at fits

theorem bind {next : α × List Char → Reading β}
    (leaves : LeavesAtMost smaller reading)
    (follows : ∀ value after, after.length ≤ smaller → LeavesAtMost bound (next (value, after))) :
    LeavesAtMost bound (reading.bind next) := by
  cases reading with
  | error failure => exact error failure
  | ok pair => exact follows pair.1 pair.2 (leaves pair.1 pair.2 rfl)

end LeavesAtMost

end TextTemplate
