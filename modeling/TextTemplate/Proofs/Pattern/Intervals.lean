import Mathlib.Data.Char
import Mathlib.Order.Interval.Finset.Nat
import TextTemplate.Pattern.CharRange

/-!
# Intervals of characters

An interval holds its characters in the order of their code points, from one end to the other.
It has as many of them as code points, less those of the surrogate block.  A range is the
interval between its ends in whichever order they are given.
-/

namespace TextTemplate

/-- The code points that are no characters although there are characters on both sides. -/
def surrogates : Finset Nat := Finset.Icc 0xd800 0xdfff

/-- A character has a code point below the end of the code space, outside the surrogates. -/
theorem exists_character_iff {code : Nat} :
    (∃ character : Char, character.toNat = code) ↔ code < 0x110000 ∧ code ∉ surrogates := by
  have valid : code.isValidChar ↔ code < 0x110000 ∧ code ∉ surrogates := by
    simp only [Nat.isValidChar, surrogates, Finset.mem_Icc]
    omega
  rw [← valid]
  constructor
  · rintro ⟨character, rfl⟩
    exact character.valid
  · intro isValid
    exact ⟨Char.ofNatAux code isValid, rfl⟩

@[simp]
theorem character?_toNat (character : Char) : character? character.toNat = some character :=
  character?_eq_some_iff.mpr rfl

/-! ## From one character up to another -/

section Between

variable {first last : Char}

theorem charsBetween_pairwise (first last : Char) :
    (charsBetween first last).Pairwise fun before behind => before.toNat < behind.toNat := by
  rw [charsBetween, List.pairwise_filterMap]
  refine (List.pairwise_lt_range' 1).imp ?_
  intro code later increases before made behind madeLater
  rwa [← character?_eq_some_iff.mp made, ← character?_eq_some_iff.mp madeLater]

theorem head?_charsBetween (ordered : first ≤ last) :
    (charsBetween first last).head? = some first := by
  have codes : last.toNat + 1 - first.toNat = last.toNat - first.toNat + 1 :=
    Nat.succ_sub ordered
  rw [charsBetween, codes, List.range'_succ, List.filterMap_cons_some (character?_toNat first)]
  rfl

theorem getLast?_charsBetween (ordered : first ≤ last) :
    (charsBetween first last).getLast? = some last := by
  have codes : last.toNat + 1 - first.toNat = last.toNat - first.toNat + 1 :=
    Nat.succ_sub ordered
  have lastCode : first.toNat + (last.toNat - first.toNat) = last.toNat :=
    Nat.add_sub_cancel' ordered
  rw [charsBetween, codes, List.range'_1_concat, lastCode, List.filterMap_append]
  simp

/-- The code points of an interval are those between its ends that are no surrogates. -/
theorem toFinset_map_charsBetween (first last : Char) :
    ((charsBetween first last).map Char.toNat).toFinset =
      Finset.Icc first.toNat last.toNat \ surrogates := by
  ext code
  simp only [List.mem_toFinset, List.mem_map, mem_charsBetween_iff, Finset.mem_sdiff,
    Finset.mem_Icc]
  constructor
  · rintro ⟨character, between, rfl⟩
    exact ⟨between, (exists_character_iff.mp ⟨character, rfl⟩).2⟩
  · rintro ⟨between, noSurrogate⟩
    have inside : code < 0x110000 :=
      Nat.lt_of_le_of_lt between.2 (exists_character_iff.mp ⟨last, rfl⟩).1
    obtain ⟨character, rfl⟩ := exists_character_iff.mpr ⟨inside, noSurrogate⟩
    exact ⟨character, between, rfl⟩

/-- Characters and surrogates together make up the code points between two ends. -/
theorem length_charsBetween_add (first last : Char) :
    (charsBetween first last).length + (Finset.Icc first.toNat last.toNat ∩ surrogates).card =
      last.toNat + 1 - first.toNat := by
  have increasing : ((charsBetween first last).map Char.toNat).Pairwise (· < ·) :=
    List.pairwise_map.mpr (charsBetween_pairwise first last)
  have distinct : ((charsBetween first last).map Char.toNat).Nodup :=
    increasing.imp Nat.ne_of_lt
  rw [← List.length_map (f := Char.toNat), ← List.toFinset_card_of_nodup distinct,
    toFinset_map_charsBetween, Finset.card_sdiff_add_card_inter, Nat.card_Icc]

end Between

/-! ## Ends in either order -/

/-- How far apart two code points are, whichever is larger. -/
theorem codePointDistance_eq (first second : Char) :
    codePointDistance first second = ((first.toNat : Int) - second.toNat).natAbs := by
  unfold codePointDistance
  omega

theorem toNat_max_sub_toNat_min (first second : Char) :
    (max first second).toNat - (min first second).toNat = codePointDistance first second := by
  unfold codePointDistance
  rcases le_total first second with ordered | ordered
  · have codes : first.toNat ≤ second.toNat := ordered
    rw [max_eq_right ordered, min_eq_left ordered]
    omega
  · have codes : second.toNat ≤ first.toNat := ordered
    rw [max_eq_left ordered, min_eq_right ordered]
    omega

/-- A range is the interval from its lower end to its upper one. -/
theorem expandRange_eq (maxSpan : Nat) (first second : Char) :
    expandRange maxSpan first second =
      if maxSpan < codePointDistance first second then
        .error ⟨codePointDistance first second⟩
      else .ok (charsBetween (min first second) (max first second)) := by
  unfold expandRange
  dsimp only
  rcases le_total first second with ordered | ordered
  · rw [if_pos ordered, min_eq_left ordered, max_eq_right ordered]
  · split
    · rfl
    · rw [min_eq_right ordered, max_eq_left ordered]
      split
      · next same =>
          obtain rfl := le_antisymm same ordered
          rfl
      · rfl

theorem length_expandRange_le {maxSpan : Nat} {first second : Char} {range : List Char}
    (expands : expandRange maxSpan first second = .ok range) : range.length ≤ maxSpan + 1 := by
  rw [expandRange_eq] at expands
  split at expands
  · cases expands
  · cases expands
    have number := length_charsBetween_add (min first second) (max first second)
    have span := toNat_max_sub_toNat_min first second
    omega

/--
A range is symmetric in its ends, and refused exactly when these lie farther apart than is
allowed.  Otherwise it lists the characters between them in increasing order, from the lower end
to the upper one, and has as many as there are code points, less the surrogates among these.
-/
theorem expandRange_is_interval (maxSpan : Nat) (first second : Char) :
    let low := min first second
    let high := max first second
    let span := ((first.toNat : Int) - second.toNat).natAbs
    expandRange maxSpan first second = expandRange maxSpan second first ∧
      ((∃ range, expandRange maxSpan first second = .ok range) ↔ span ≤ maxSpan) ∧
      (expandRange maxSpan first second = .error ⟨span⟩ ↔ maxSpan < span) ∧
      ∀ range, expandRange maxSpan first second = .ok range →
        range.Pairwise (fun before behind => before.toNat < behind.toNat) ∧
          (∀ character, character ∈ range ↔ low ≤ character ∧ character ≤ high) ∧
          range ≠ [] ∧ range.head? = some low ∧ range.getLast? = some high ∧
          range.length + (Finset.Icc low.toNat high.toNat ∩ surrogates).card = span + 1 := by
  intro low high span
  have distance : codePointDistance first second = span := codePointDistance_eq first second
  have swapped : codePointDistance second first = span := by
    rw [codePointDistance_eq]
    omega
  have ordered : low ≤ high := min_le_max
  have expanded : expandRange maxSpan first second =
      if maxSpan < span then .error ⟨span⟩ else .ok (charsBetween low high) := by
    rw [expandRange_eq, distance]
  refine ⟨?_, ?_, ?_, ?_⟩
  · rw [expanded, expandRange_eq, swapped, min_comm second, max_comm second]
  · rw [expanded]
    split <;> simp <;> omega
  · rw [expanded]
    split <;> simp <;> omega
  · intro range expands
    rw [expanded] at expands
    split at expands
    · cases expands
    · cases expands
      have number := length_charsBetween_add low high
      have ends : high.toNat - low.toNat = span := by
        rw [toNat_max_sub_toNat_min, distance]
      have codes : low.toNat ≤ high.toNat := ordered
      refine ⟨charsBetween_pairwise low high, fun _ => mem_charsBetween_iff, ?_,
        head?_charsBetween ordered, getLast?_charsBetween ordered, by omega⟩
      exact List.ne_nil_of_mem (mem_charsBetween_iff.mpr ⟨le_refl low, ordered⟩)

/-- A range across all surrogates with its ends reversed, as wide as is allowed. -/
theorem expandRange_across_surrogates :
    let first := '\ue001'
    let second := '\ud7fe'
    let range := [second, '\ud7ff', '\ue000', first]
    expandRange 2051 first second = .ok range ∧ expandRange 2051 second first = .ok range ∧
      range.Pairwise (fun before behind => before.toNat < behind.toNat) ∧
      range.length + (Finset.Icc second.toNat first.toNat ∩ surrogates).card = 2052 := by
  intro first second range
  have reversed : second ≤ first := by decide
  have expands : expandRange 2051 first second = .ok range := by decide +kernel
  obtain ⟨symmetric, -, -, ofRange⟩ := expandRange_is_interval 2051 first second
  obtain ⟨increasing, -, -, -, -, number⟩ := ofRange range expands
  rw [min_eq_right reversed, max_eq_left reversed] at number
  exact ⟨expands, symmetric.symm.trans expands, increasing, number.trans (by decide)⟩

end TextTemplate
