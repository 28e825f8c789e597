/-!
# Ranges of characters

An interval of code points holds its characters in increasing order; the surrogate block is
no character and is passed over.
-/

namespace TextTemplate

/-- The character with a code point, when there is one. -/
def character? (code : Nat) : Option Char :=
  if code.isValidChar then some (Char.ofNat code) else none

/-- All characters from `first` to `last`, both included. -/
def charsBetween (first last : Char) : List Char :=
  (List.range' first.toNat (last.toNat + 1 - first.toNat)).filterMap character?

theorem character?_eq_some_iff {code : Nat} {character : Char} :
    character? code = some character ↔ code = character.toNat := by
  unfold character?
  constructor
  · intro made
    split at made
    · next valid =>
        cases made
        rw [Char.ofNat, dif_pos valid]
        rfl
    · cases made
  · rintro rfl
    have valid : character.toNat.isValidChar := character.valid
    simp [valid]

/-- An interval holds exactly the characters between its ends. -/
theorem mem_charsBetween_iff {first last character : Char} :
    character ∈ charsBetween first last ↔ first ≤ character ∧ character ≤ last := by
  simp only [charsBetween, List.mem_filterMap, character?_eq_some_iff, exists_eq_right,
    List.mem_range'_1, Char.le_def, UInt32.le_iff_toNat_le, Char.toNat]
  omega

/-- How far apart two code points are. -/
def codePointDistance (first second : Char) : Nat :=
  max first.toNat second.toNat - min first.toNat second.toNat

/-- Refusal of a range whose ends lie `span` code points apart. -/
structure RangeTooLarge where
  span : Nat
deriving DecidableEq, Repr

/-- The characters between two ends given in either order, unless they lie too far apart. -/
def expandRange (maxSpan : Nat) (first second : Char) : Except RangeTooLarge (List Char) :=
  let span := codePointDistance first second
  if maxSpan < span then .error ⟨span⟩
  else if first ≤ second then .ok (charsBetween first second)
  else .ok (charsBetween second first)

/-- A range holds exactly the characters between its ends, whichever comes first. -/
theorem mem_expandRange_iff {maxSpan : Nat} {first second character : Char} {range : List Char}
    (expands : expandRange maxSpan first second = .ok range) :
    character ∈ range ↔
      first ≤ character ∧ character ≤ second ∨ second ≤ character ∧ character ≤ first := by
  unfold expandRange at expands
  dsimp only at expands
  split at expands
  · cases expands
  · split at expands
    · next ordered =>
        cases expands
        rw [mem_charsBetween_iff, or_iff_left_of_imp]
        rintro ⟨behind, before⟩
        exact ⟨Char.le_trans ordered behind, Char.le_trans before ordered⟩
    · next reversed =>
        cases expands
        rw [mem_charsBetween_iff, or_iff_right_of_imp]
        rintro ⟨behind, before⟩
        exact absurd (Char.le_trans behind before) reversed

/-- Both ends of a range are among its characters. -/
theorem ends_mem_expandRange {maxSpan : Nat} {first second : Char} {range : List Char}
    (expands : expandRange maxSpan first second = .ok range) :
    first ∈ range ∧ second ∈ range := by
  rw [mem_expandRange_iff expands, mem_expandRange_iff expands]
  simpa [Char.le_refl] using Char.le_total first second

theorem expandRange_ne_nil {maxSpan : Nat} {first second : Char} {range : List Char}
    (expands : expandRange maxSpan first second = .ok range) : range ≠ [] :=
  List.ne_nil_of_mem (ends_mem_expandRange expands).1

end TextTemplate
