import TextTemplate.Proofs.Random.Answers

/-!
# Integers and arrangements from indices

An integer between two words comes from exactly one list of indices, and every arrangement of
some characters comes from a list of indices.
-/

namespace TextTemplate

/-! ## Integers -/

/-- The indices that make an integer between two bounds. -/
def integerIndices (low high number : Nat) : List Nat :=
  if high - low + 1 < wordSize then [number - low]
  else [number / (wordSize / 2), number % (wordSize / 2)]

theorem length_integerIndices (low high number : Nat) :
    (integerIndices low high number).length = (integerBounds low high).length := by
  unfold integerIndices integerBounds
  split <;> rfl

/-- An integer between two words is made by its indices and by no others. -/
theorem integerWith_scripted_eq_iff {low high : Nat} (ordered : low ≤ high)
    (fits : high < wordSize) {indices : List Nat} {number : Nat} :
    WithinBounds (integerBounds low high) indices ∧
        (integerWith Pick.scripted low high indices).1 = number ↔
      (low ≤ number ∧ number ≤ high) ∧ indices = integerIndices low high number := by
  have size : wordSize = 18446744073709551616 := rfl
  have half : wordSize / 2 = 9223372036854775808 := rfl
  unfold integerBounds integerWith integerIndices
  by_cases narrow : high - low + 1 < wordSize
  · simp only [narrow, ↓reduceIte]
    constructor
    · rintro ⟨within, same⟩
      rcases indices with _ | ⟨index, _ | ⟨next, rest⟩⟩
      · cases within
      · simp only [WithinBounds, Pick.scripted] at within same
        refine ⟨by omega, ?_⟩
        rw [← same, Nat.add_sub_cancel_left]
      · cases within.2
    · rintro ⟨between, rfl⟩
      simp only [WithinBounds, Pick.scripted, and_true]
      omega
  · simp only [narrow, ↓reduceIte]
    constructor
    · rintro ⟨within, same⟩
      rcases indices with _ | ⟨top, _ | ⟨low, _ | ⟨next, rest⟩⟩⟩
      · cases within
      · cases within.2
      · simp only [half, WithinBounds, Pick.scripted, and_true] at within same
        refine ⟨by omega, ?_⟩
        simp only [half, List.cons.injEq, and_true]
        omega
      · cases within.2.2
    · rintro ⟨between, rfl⟩
      simp only [half, WithinBounds, Pick.scripted, and_true]
      omega

/-- An integer from any picker that stays below its bounds lies between the two bounds. -/
theorem integerWith_between {σ : Type} {pick : Nat → σ → Nat × σ} (below : Pick.StaysBelow pick)
    {low high : Nat} (ordered : low ≤ high) (fits : high < wordSize) (state : σ) :
    low ≤ (integerWith pick low high state).1 ∧ (integerWith pick low high state).1 ≤ high := by
  rw [integerWith_eq_scripted]
  have within : WithinBounds (integerBounds low high) _ :=
    below.answers integerBounds_pos state
  exact ((integerWith_scripted_eq_iff ordered fits).mp ⟨within, rfl⟩).1

/-! ## Arrangements -/

namespace Shuffle

/--
Swapping the last of some first elements with one of them moves that one to the end of them,
and leaves the elements behind alone.
-/
theorem toList_swapIfInBounds {array : Array Char} {front back : List Char} {last chosen : Nat}
    (parts : array.toList = front ++ back) (length : front.length = last + 1)
    (inBounds : chosen < front.length) :
    ∃ moved : List Char, moved.length = last ∧ (moved ++ [front[chosen]]).Perm front ∧
      (array.swapIfInBounds last chosen).toList = moved ++ front[chosen] :: back := by
  have lastIn : last < front.length := by omega
  have size : array.size = front.length + back.length := by
    rw [← Array.length_toList, parts, List.length_append]
  have element : ∀ position (inFront : position < front.length)
      (inArray : position < array.size), array[position] = front[position] := by
    intro position inFront inArray
    rw [← Array.getElem_toList, List.getElem_of_eq parts, List.getElem_append_left inFront]
  obtain ⟨settled, same⟩ : ∃ settled, (front.set last front[chosen]).set chosen front[last] =
      settled := ⟨_, rfl⟩
  have settledLength : settled.length = last + 1 := by
    rw [← same, List.length_set, List.length_set, length]
  have settledLast : settled[last] = front[chosen] := by
    subst same
    rw [List.getElem_set, List.getElem_set_self]
    split
    · next here => simp only [here]
    · rfl
  have apart : settled.dropLast ++ [front[chosen]] = settled := by
    rw [← settledLast]
    have notEmpty : settled ≠ [] := List.ne_nil_of_length_pos (by omega)
    have isLast : settled[last] = settled.getLast notEmpty := by
      rw [List.getLast_eq_getElem]
      simp only [settledLength, Nat.add_sub_cancel]
    rw [isLast, List.dropLast_concat_getLast]
  refine ⟨settled.dropLast, ?_, ?_, ?_⟩
  · rw [List.length_dropLast, settledLength, Nat.add_sub_cancel]
  · rw [apart, ← same]
    exact List.set_set_perm lastIn inBounds
  · rw [Array.swapIfInBounds_def, dif_pos (by omega), dif_pos (by omega), Array.toList_swap,
      element chosen inBounds, element last lastIn, parts, List.set_append_left _ _ lastIn,
      List.set_append_left _ _ (by rwa [List.length_set]), same]
    conv => lhs; rw [← apart]
    simp

/-- Every arrangement of the elements that are not settled yet can be reached. -/
theorem exists_settle_eq {last : Nat} {array : Array Char} {front back arranged : List Char}
    (parts : array.toList = front ++ back) (length : front.length = last + 1)
    (rearranges : arranged.Perm front) :
    ∃ indices, WithinBounds (shuffleBounds (last + 1)) indices ∧
      (settle Pick.scripted last array indices).1.toList = arranged ++ back := by
  induction last generalizing array front back arranged with
  | zero =>
      obtain ⟨only, rfl⟩ := List.length_eq_one_iff.mp length
      obtain rfl := List.perm_singleton.mp rearranges
      exact ⟨[], trivial, parts⟩
  | succ last ih =>
      have notEmpty : arranged ≠ [] := by
        rintro rfl
        simp [← rearranges.length_eq] at length
      obtain ⟨first, chosenLast, rfl⟩ : ∃ first chosenLast, arranged = first ++ [chosenLast] :=
        ⟨_, _, (List.dropLast_concat_getLast notEmpty).symm⟩
      -- The element that has to come last is chosen; the swap leaves the others in front.
      have member : chosenLast ∈ front := rearranges.subset (by simp)
      obtain ⟨chosen, inBounds, rfl⟩ := List.getElem_of_mem member
      obtain ⟨moved, movedLength, sameElements, swapped⟩ :=
        toList_swapIfInBounds parts length inBounds
      have rest : first.Perm moved :=
        (List.perm_append_right_iff _).mp (rearranges.trans sameElements.symm)
      obtain ⟨indices, within, settled⟩ := ih swapped movedLength rest
      refine ⟨chosen :: indices, ⟨by omega, within⟩, ?_⟩
      rw [List.append_assoc]
      exact settled

end Shuffle

/-- Exactly the arrangements of some characters come from indices within the bounds. -/
theorem exists_shuffleWith_scripted_iff {characters arranged : List Char} :
    (∃ indices, WithinBounds (shuffleBounds characters.length) indices ∧
      (shuffleWith Pick.scripted characters indices).1 = arranged) ↔
        arranged.Perm characters := by
  constructor
  · rintro ⟨indices, within, rfl⟩
    exact shuffleWith_perm Pick.scripted characters indices
  · intro rearranges
    cases characters with
    | nil => exact ⟨[], trivial, (List.perm_nil.mp rearranges).symm⟩
    | cons first rest =>
        have parts : (first :: rest).toArray.toList = (first :: rest) ++ [] :=
          (List.append_nil _).symm
        obtain ⟨indices, within, settled⟩ := Shuffle.exists_settle_eq parts rfl rearranges
        rw [List.append_nil] at settled
        exact ⟨indices, within, settled⟩

end TextTemplate
