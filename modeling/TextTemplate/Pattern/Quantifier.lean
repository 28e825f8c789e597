import TextTemplate.Pattern.Limits
import TextTemplate.Pattern.Reading
import TextTemplate.Text.WordSize

/-!
# Quantifiers

A quantifier stands in braces behind a class: one number, or two bounds with a colon or a
hyphen between them.  A number without digits is zero, but an upper bound must be written.
-/

namespace TextTemplate

/-- Whether a character parts the two bounds of a quantifier. -/
def isSeparator (character : Char) : Bool :=
  character == ':' || character == '-'

/-- What stands behind a run of digits is no longer than the text. -/
theorem length_dropWhile_le {holds : Char → Bool} {text : List Char} {first : Char}
    {rest : List Char} (same : text.dropWhile holds = first :: rest) :
    rest.length ≤ text.length := by
  have whole := (List.dropWhile_sublist (p := holds) (l := text)).length_le
  rw [same, List.length_cons] at whole
  omega

namespace Quantifier

/-- The number written by the digits in front of `remaining`. -/
def number (digits remaining : List Char) : Except Failure Nat :=
  let value := Nat.ofDigitChars 10 digits 0
  if value < wordSize then .ok value else .error ⟨.numberTooLarge digits, remaining⟩

/-- The upper bound written in front of `remaining`, which the limit has to allow. -/
def upperBound (limits : Limits) (digits remaining : List Char) : Except Failure Nat :=
  (number digits remaining).bind fun high =>
    if limits.maxRepeat < high then
      .error ⟨.repetitionTooLarge high limits.maxRepeat, remaining⟩
    else .ok high

theorem number_eq_ok_iff {digits remaining : List Char} {value : Nat} :
    number digits remaining = .ok value ↔
      Nat.ofDigitChars 10 digits 0 = value ∧ value < wordSize := by
  unfold number
  dsimp only
  split
  · next fits =>
      constructor
      · rintro ⟨⟩
        exact ⟨rfl, fits⟩
      · rintro ⟨rfl, _⟩
        rfl
  · next large =>
      constructor
      · rintro ⟨⟩
      · rintro ⟨rfl, fits⟩
        exact absurd fits large

theorem upperBound_eq_ok_iff {limits : Limits} {digits remaining : List Char} {high : Nat} :
    upperBound limits digits remaining = .ok high ↔
      Nat.ofDigitChars 10 digits 0 = high ∧ high < wordSize ∧ high ≤ limits.maxRepeat := by
  unfold upperBound
  rw [Reading.bind_eq_ok_iff]
  constructor
  · rintro ⟨value, read, allowed⟩
    obtain ⟨written, fits⟩ := number_eq_ok_iff.mp read
    split at allowed
    · cases allowed
    · next within =>
        cases allowed
        exact ⟨written, fits, Nat.le_of_not_lt within⟩
  · rintro ⟨written, fits, within⟩
    refine ⟨high, number_eq_ok_iff.mpr ⟨written, fits⟩, ?_⟩
    rw [if_neg (Nat.not_lt.mpr within)]

/-- Reads the rest of a quantifier behind its separator. -/
def readUpper (limits : Limits) (low : Nat) (text : List Char) : Reading Repetition :=
  let digits := text.takeWhile Char.isDigit
  match text.dropWhile Char.isDigit with
  | [] => .error ⟨.unterminatedQuantifier, []⟩
  | '\x7d' :: after =>
      if digits.isEmpty then .error ⟨.missingUpperBound, '\x7d' :: after⟩
      else
        (upperBound limits digits ('\x7d' :: after)).bind fun high =>
          if high < low then .error ⟨.boundsReversed low high, '\x7d' :: after⟩
          else .ok (.between low high, after)
  | other :: after =>
      if isSeparator other then .error ⟨.secondSeparator, other :: after⟩
      else .error ⟨.nonDigit other, other :: after⟩

theorem readUpper_leaves (limits : Limits) (low : Nat) (text : List Char) :
    LeavesAtMost text.length (readUpper limits low text) := by
  unfold readUpper
  dsimp only
  split
  · exact .error _
  · next after same =>
      have fits := length_dropWhile_le same
      split
      · exact .error _
      · cases upperBound limits (text.takeWhile Char.isDigit) ('\x7d' :: after) with
        | error failure => exact .error failure
        | ok high =>
            simp only [Except.bind]
            split
            · exact .error _
            · exact .ok fits
  · split <;> exact .error _

end Quantifier

/-- Reads a quantifier behind its opening brace, up to the closing one. -/
def readQuantifier (limits : Limits) (text : List Char) : Reading Repetition :=
  let digits := text.takeWhile Char.isDigit
  match text.dropWhile Char.isDigit with
  | [] => .error ⟨.unterminatedQuantifier, []⟩
  | '\x7d' :: after =>
      (Quantifier.upperBound limits digits ('\x7d' :: after)).map fun count =>
        (.exactly count, after)
  | other :: after =>
      if isSeparator other then
        (Quantifier.number digits (other :: after)).bind fun low =>
          Quantifier.readUpper limits low after
      else .error ⟨.nonDigit other, other :: after⟩

theorem readQuantifier_leaves (limits : Limits) (text : List Char) :
    LeavesAtMost text.length (readQuantifier limits text) := by
  unfold readQuantifier
  dsimp only
  split
  · exact .error _
  · next after same =>
      have fits := length_dropWhile_le same
      cases Quantifier.upperBound limits (text.takeWhile Char.isDigit) ('\x7d' :: after) with
      | error failure => exact .error failure
      | ok count => exact .ok fits
  · next other after _ same =>
      have fits := length_dropWhile_le same
      split
      · cases Quantifier.number (text.takeWhile Char.isDigit) (other :: after) with
        | error failure => exact .error failure
        | ok low => exact (Quantifier.readUpper_leaves limits low after).mono fits
      · exact .error _

end TextTemplate
