import TextTemplate.Proofs.Random.Unbiased
import TextTemplate.Proofs.Safety.Draws

/-!
# Integers without bias

Every integer between two words comes from one list of indices, also where the range is that of
all words and its size is none.  So indices that are drawn uniformly make every integer of a
range with the same probability.
-/

namespace TextTemplate

/-- The integer between two bounds that is made from indices. -/
def integerFrom (low high : Nat) (indices : List Nat) : Nat :=
  (integerWith Pick.scripted low high indices).1

variable {low high : Nat}

/-- Only the range of all words takes two indices. -/
theorem integerBounds_eq (ordered : low ≤ high) (word : high < wordSize) :
    integerBounds low high =
      if low = 0 ∧ high = wordSize - 1 then [2, wordSize / 2] else [high - low + 1] := by
  unfold integerBounds
  by_cases narrow : high - low + 1 < wordSize
  · rw [if_pos narrow, if_neg (by omega)]
  · rw [if_neg narrow, if_pos (by omega)]

/-- There are as many lists of indices as integers. -/
theorem prod_integerBounds (ordered : low ≤ high) (word : high < wordSize) :
    (integerBounds low high).prod = high - low + 1 := by
  have twice : 2 * (wordSize / 2) = wordSize := by simp [wordSize]
  unfold integerBounds
  split
  · rw [List.prod_singleton]
  · rw [List.prod_cons, List.prod_singleton, twice]
    omega

theorem integerFrom_bijOn (ordered : low ≤ high) (word : high < wordSize) :
    Set.BijOn (integerFrom low high) {indices | WithinBounds (integerBounds low high) indices}
      (Set.Icc low high) := by
  refine ⟨?_, ?_, ?_⟩
  · intro indices within
    exact ((integerWith_scripted_eq_iff ordered word).mp ⟨within, rfl⟩).1
  · intro indices within others othersWithin same
    obtain ⟨-, made⟩ := (integerWith_scripted_eq_iff ordered word).mp ⟨within, same⟩
    obtain ⟨-, othersMade⟩ := (integerWith_scripted_eq_iff ordered word).mp ⟨othersWithin, rfl⟩
    exact made.trans othersMade.symm
  · intro number between
    exact ⟨_, (integerWith_scripted_eq_iff ordered word).mpr ⟨between, rfl⟩⟩

/-- Uniform indices make each integer of a range with the same probability. -/
theorem map_integerFrom_apply (ordered : low ≤ high) (word : high < wordSize) {number : Nat}
    (between : number ∈ Set.Icc low high) :
    (uniformIndices (integerBounds low high)).map (integerFrom low high) number =
      ((high - low + 1 : Nat) : ENNReal)⁻¹ := by
  have bijective := integerFrom_bijOn ordered word
  obtain ⟨indices, within, rfl⟩ := bijective.surjOn between
  rw [map_uniformIndices_apply integerBounds_pos bijective.injOn within,
    prod_integerBounds ordered word]

/--
An integer between two words is drawn without any step leaving the words.  It takes one index
below the size of the range, or one for the top bit and one for the rest where that size is no
word, and each integer of the range comes from one list of such indices: with the same
probability when these are uniform and independent.
-/
theorem integer_unbiased {σ : Type} {pick : Nat → σ → Nat × σ} (below : Pick.StaysBelow pick)
    (label : String) (state : σ) (ordered : low ≤ high) (word : high < wordSize) :
    let bounds := if low = 0 ∧ high = wordSize - 1 then [2, wordSize / 2] else [high - low + 1]
    let recorded := (Provider.ofIndex (Pick.recorded pick) label).integer low high (state, [])
    let drawn := (Provider.ofIndex pick label).integer low high state
    Guarded.integer pick low high state = .ok drawn ∧
      (low ≤ drawn.1 ∧ drawn.1 ≤ high) ∧
      (recorded.1 = drawn.1 ∧ recorded.2.2.reverse = bounds) ∧
      (∃ indices, WithinBounds bounds indices ∧ drawn.1 = integerFrom low high indices) ∧
      Set.BijOn (integerFrom low high) {indices | WithinBounds bounds indices}
        (Set.Icc low high) ∧
      ∀ number ∈ Set.Icc low high,
        (uniformIndices bounds).map (integerFrom low high) number =
          ((high - low + 1 : Nat) : ENNReal)⁻¹ := by
  intro bounds recorded drawn
  have sameBounds : integerBounds low high = bounds := integerBounds_eq ordered word
  have answered := integerWith_eq_scripted pick low high state
  have answeredRecorded := integerWith_eq_scripted (Pick.recorded pick) low high (state, [])
  rw [Pick.answers_recorded, List.append_nil] at answeredRecorded
  have within : WithinBounds (integerBounds low high)
      (Pick.answers pick (integerBounds low high) state).1 :=
    below.answers integerBounds_pos state
  rw [← sameBounds]
  refine ⟨Guarded.integer_eq_ok below ordered word state,
    integerWith_between below ordered word state, ⟨?_, ?_⟩, ⟨_, within, ?_⟩,
    integerFrom_bijOn ordered word, fun number between => map_integerFrom_apply ordered word between⟩
  · exact (congrArg Prod.fst answeredRecorded).trans (congrArg Prod.fst answered).symm
  · exact (congrArg (·.2.2.reverse) answeredRecorded).trans (List.reverse_reverse _)
  · exact congrArg Prod.fst answered

/-- The range of all words, always with the last index: the answers are below two and half. -/
theorem integer_unbiased_of_all_words :
    let pick := Pick.highest
    let recorded := (Provider.ofIndex (Pick.recorded pick) "highest").integer 0 (wordSize - 1)
      ((), [])
    (Pick.StaysBelow pick ∧ 0 ≤ wordSize - 1 ∧ wordSize - 1 < wordSize) ∧
      Guarded.integer pick 0 (wordSize - 1) () = .ok (wordSize - 1, ()) ∧
        recorded = (wordSize - 1, (), [wordSize / 2, 2]) ∧
          (uniformIndices [2, wordSize / 2]).map (integerFrom 0 (wordSize - 1)) (wordSize - 1) =
            (wordSize : ENNReal)⁻¹ := by
  intro pick recorded
  have below : Pick.StaysBelow pick := fun bound _ positive => Nat.sub_lt positive Nat.one_pos
  have ordered : 0 ≤ wordSize - 1 := Nat.zero_le _
  have word : wordSize - 1 < wordSize := by decide
  have size : wordSize - 1 - 0 + 1 = wordSize := by decide
  obtain ⟨checked, -, -, -, -, unbiased⟩ := integer_unbiased below "highest" () ordered word
  refine ⟨⟨below, ordered, word⟩, checked.trans (by decide), by decide, ?_⟩
  have probability := unbiased (wordSize - 1) ⟨ordered, Nat.le_refl _⟩
  rwa [if_pos ⟨rfl, rfl⟩, size] at probability

end TextTemplate
