import Mathlib.Probability.Distributions.Uniform
import TextTemplate.Proofs.Count.Arrangements
import TextTemplate.Proofs.Random.Reach

/-!
# Shuffling without bias

Distinct characters come to each of their arrangements by one list of indices only.  So indices
that are drawn uniformly, each without regard to the others, make every arrangement with the same
probability.
-/

namespace TextTemplate

/-! ## The bounds of a shuffle -/

/-- From the number of characters down to two. -/
theorem shuffleBounds_eq (length : Nat) :
    shuffleBounds length = (List.range' 2 (length - 1)).reverse := by
  induction length using shuffleBounds.induct with
  | case1 => rfl
  | case2 => rfl
  | case3 length ih =>
      rw [shuffleBounds, ih, Nat.add_sub_cancel, show length + 2 - 1 = length + 1 from rfl,
        List.range'_1_concat, List.reverse_append, Nat.add_comm 2 length]
      rfl

theorem prod_shuffleBounds (length : Nat) : (shuffleBounds length).prod = length.factorial := by
  induction length using shuffleBounds.induct with
  | case1 => rfl
  | case2 => rfl
  | case3 length ih => rw [shuffleBounds, List.prod_cons, ih, Nat.factorial_succ (length + 1)]

/-! ## One list of indices for each arrangement -/

namespace Shuffle

/-- Settling rearranges the elements in front, and leaves those behind where they are. -/
theorem exists_settle_eq_append {last : Nat} {array : Array Char} {front back : List Char}
    (parts : array.toList = front ++ back) (length : front.length = last + 1)
    {indices : List Nat} (within : WithinBounds (shuffleBounds (last + 1)) indices) :
    ∃ settled : List Char, settled.Perm front ∧
      (settle Pick.scripted last array indices).1.toList = settled ++ back := by
  induction last generalizing array front back indices with
  | zero => exact ⟨front, .refl front, parts⟩
  | succ last ih =>
      cases indices with
      | nil => cases within
      | cons chosen indices =>
          have inBounds : chosen < front.length := length ▸ within.1
          obtain ⟨moved, movedLength, sameElements, swapped⟩ :=
            toList_swapIfInBounds parts length inBounds
          obtain ⟨settled, rearranges, same⟩ := ih swapped movedLength within.2
          refine ⟨settled ++ [front[chosen]], ?_, ?_⟩
          · exact (rearranges.append_right _).trans sameElements
          · rw [List.append_assoc]
            exact same

/-- Different indices settle distinct elements differently. -/
theorem settle_injective {last : Nat} {array : Array Char} {front back : List Char}
    (parts : array.toList = front ++ back) (length : front.length = last + 1)
    (distinct : front.Nodup) {indices others : List Nat}
    (within : WithinBounds (shuffleBounds (last + 1)) indices)
    (othersWithin : WithinBounds (shuffleBounds (last + 1)) others)
    (same : (settle Pick.scripted last array indices).1.toList =
      (settle Pick.scripted last array others).1.toList) :
    indices = others := by
  induction last generalizing array front back indices others with
  | zero =>
      rw [List.eq_nil_of_length_eq_zero within.length_eq,
        List.eq_nil_of_length_eq_zero othersWithin.length_eq]
  | succ last ih =>
      rcases indices with _ | ⟨chosen, indices⟩
      · cases within
      rcases others with _ | ⟨other, others⟩
      · cases othersWithin
      have inBounds : chosen < front.length := length ▸ within.1
      have otherInBounds : other < front.length := length ▸ othersWithin.1
      obtain ⟨moved, movedLength, sameElements, swapped⟩ :=
        toList_swapIfInBounds parts length inBounds
      obtain ⟨otherMoved, otherLength, -, otherSwapped⟩ :=
        toList_swapIfInBounds parts length otherInBounds
      -- The element that was chosen first is the last of those in front from then on.
      obtain ⟨settled, rearranges, result⟩ :=
        exists_settle_eq_append swapped movedLength within.2
      obtain ⟨otherSettled, otherRearranges, otherResult⟩ :=
        exists_settle_eq_append otherSwapped otherLength othersWithin.2
      have sameResult : settled ++ front[chosen] :: back =
          otherSettled ++ front[other] :: back := by
        rw [← result, ← otherResult]
        exact same
      have sameLength : settled.length = otherSettled.length := by
        rw [rearranges.length_eq, otherRearranges.length_eq, movedLength, otherLength]
      have sameElement : front[chosen] = front[other] :=
        (List.cons.inj (List.append_inj_right sameResult sameLength)).1
      obtain rfl := distinct.getElem_inj_iff.mp sameElement
      have movedDistinct : moved.Nodup :=
        (sameElements.nodup_iff.mpr distinct).of_append_left
      rw [ih swapped movedLength movedDistinct within.2 othersWithin.2 same]

end Shuffle

/-- The arrangement that some characters are brought to by indices. -/
def arrange (characters : List Char) (indices : List Nat) : List Char :=
  (shuffleWith Pick.scripted characters indices).1

theorem arrange_injOn {characters : List Char} (distinct : characters.Nodup) :
    Set.InjOn (arrange characters)
      {indices | WithinBounds (shuffleBounds characters.length) indices} := by
  intro indices within others othersWithin same
  cases characters with
  | nil =>
      rw [List.eq_nil_of_length_eq_zero within.length_eq,
        List.eq_nil_of_length_eq_zero othersWithin.length_eq]
  | cons first rest =>
      have parts : (first :: rest).toArray.toList = (first :: rest) ++ [] :=
        (List.append_nil _).symm
      exact Shuffle.settle_injective parts rfl distinct within othersWithin same

/-- Distinct characters come to each arrangement by one list of indices. -/
theorem arrange_bijOn {characters : List Char} (distinct : characters.Nodup) :
    Set.BijOn (arrange characters)
      {indices | WithinBounds (shuffleBounds characters.length) indices}
      (arrangements characters) := by
  refine ⟨?_, arrange_injOn distinct, ?_⟩
  · intro indices _
    exact mem_arrangements_iff.mpr (shuffleWith_perm Pick.scripted characters indices)
  · intro arranged member
    exact exists_shuffleWith_scripted_iff.mpr (mem_arrangements_iff.mp member)

/-! ## Uniform indices -/

/-- A result that only one possible value leads to has the probability of that value. -/
theorem map_apply_of_unique {α β : Type} {values : PMF α} {f : α → β} {value : α}
    (unique : ∀ other ∈ values.support, f other = f value → other = value) :
    values.map f (f value) = values value := by
  classical
  rw [PMF.map_apply, tsum_eq_single value, if_pos rfl]
  intro other different
  rw [ite_eq_right_iff]
  intro same
  by_contra possible
  exact different (unique other possible same.symm)

/-- Each index below a bound with the same probability. -/
noncomputable def uniformIndex (bound : Nat) : PMF Nat :=
  PMF.uniformOfFinset (Finset.range (max bound 1)) (Finset.nonempty_range_iff.mpr (by omega))

theorem uniformIndex_apply {bound index : Nat} (inBounds : index < bound) :
    uniformIndex bound index = (bound : ENNReal)⁻¹ := by
  have atLeastOne : max bound 1 = bound := by omega
  rw [uniformIndex, PMF.uniformOfFinset_apply_of_mem, Finset.card_range, atLeastOne]
  rwa [Finset.mem_range, atLeastOne]

theorem mem_support_uniformIndex_iff {bound index : Nat} (positive : 0 < bound) :
    index ∈ (uniformIndex bound).support ↔ index < bound := by
  have atLeastOne : max bound 1 = bound := by omega
  rw [uniformIndex, PMF.mem_support_uniformOfFinset_iff, Finset.mem_range, atLeastOne]

/-- An index for each bound, drawn uniformly and without regard to the others. -/
noncomputable def uniformIndices : List Nat → PMF (List Nat)
  | [] => PMF.pure []
  | bound :: bounds =>
      (uniformIndex bound).bind fun index => (uniformIndices bounds).map (index :: ·)

theorem mem_support_uniformIndices_iff {bounds indices : List Nat}
    (positive : ∀ bound ∈ bounds, 0 < bound) :
    indices ∈ (uniformIndices bounds).support ↔ WithinBounds bounds indices := by
  induction bounds generalizing indices with
  | nil => cases indices <;> simp [uniformIndices, WithinBounds]
  | cons bound bounds ih =>
      obtain ⟨here, later⟩ := List.forall_mem_cons.mp positive
      cases indices with
      | nil => simp [uniformIndices, WithinBounds]
      | cons index indices =>
          simp [uniformIndices, WithinBounds, mem_support_uniformIndex_iff here, ih later,
            and_comm]

/-- All lists of indices within the bounds are equally probable. -/
theorem uniformIndices_apply {bounds indices : List Nat} (within : WithinBounds bounds indices) :
    uniformIndices bounds indices = (bounds.prod : ENNReal)⁻¹ := by
  induction bounds generalizing indices with
  | nil =>
      cases indices with
      | nil => simp [uniformIndices]
      | cons index indices => cases within
  | cons bound bounds ih =>
      cases indices with
      | nil => cases within
      | cons index indices =>
          have rest : (uniformIndices bounds).map (index :: ·) (index :: indices) =
              (bounds.prod : ENNReal)⁻¹ := by
            rw [map_apply_of_unique fun other _ same => (List.cons.inj same).2, ih within.2]
          have otherwise : ∀ other, other ≠ index →
              uniformIndex bound other *
                (uniformIndices bounds).map (other :: ·) (index :: indices) = 0 := by
            intro other different
            refine mul_eq_zero_of_right _ ((PMF.apply_eq_zero_iff _ _).mpr ?_)
            rw [PMF.mem_support_map_iff]
            rintro ⟨behind, -, same⟩
            exact different (List.cons.inj same).1
          rw [uniformIndices, PMF.bind_apply, tsum_eq_single index otherwise, rest,
            uniformIndex_apply within.1, List.prod_cons, Nat.cast_mul,
            ENNReal.mul_inv (.inr (ENNReal.natCast_ne_top _)) (.inl (ENNReal.natCast_ne_top _))]

/-- What different indices make differently comes about with the probability of its indices. -/
theorem map_uniformIndices_apply {α : Type} {bounds : List Nat} {f : List Nat → α}
    (positive : ∀ bound ∈ bounds, 0 < bound)
    (injective : Set.InjOn f {indices | WithinBounds bounds indices}) {indices : List Nat}
    (within : WithinBounds bounds indices) :
    (uniformIndices bounds).map f (f indices) = (bounds.prod : ENNReal)⁻¹ := by
  have unique : ∀ others ∈ (uniformIndices bounds).support,
      f others = f indices → others = indices := by
    intro others possible
    exact injective ((mem_support_uniformIndices_iff positive).mp possible) within
  rw [map_apply_of_unique unique, uniformIndices_apply within]

/-- Uniform indices bring distinct characters to each arrangement with the same probability. -/
theorem map_arrange_apply {characters arranged : List Char} (distinct : characters.Nodup)
    (rearranges : arranged.Perm characters) :
    (uniformIndices (shuffleBounds characters.length)).map (arrange characters) arranged =
      (characters.length.factorial : ENNReal)⁻¹ := by
  obtain ⟨indices, within, rfl⟩ := exists_shuffleWith_scripted_iff.mpr rearranges
  rw [← arrange, map_uniformIndices_apply (shuffleBounds_pos _) (arrange_injOn distinct) within,
    prod_shuffleBounds]

/--
Shuffling asks for an index below each number from that of the characters down to two, and the
indices that it is given decide on the arrangement.  Distinct characters come to each arrangement
by one list of indices, and with the same probability when these are uniform and independent.
-/
theorem shuffle_unbiased {σ : Type} {pick : Nat → σ → Nat × σ} (below : Pick.StaysBelow pick)
    (label : String) (state : σ) (characters : List Char) :
    let bounds := (List.range' 2 (characters.length - 1)).reverse
    let recorded := (Provider.ofIndex (Pick.recorded pick) label).rearrange characters (state, [])
    let shuffled := ((Provider.ofIndex pick label).rearrange characters state).1
    (recorded.1 = shuffled ∧ recorded.2.2.reverse = bounds) ∧
      shuffled.Perm characters ∧
      (∃ indices, WithinBounds bounds indices ∧ shuffled = arrange characters indices) ∧
      (characters.Nodup →
        Set.BijOn (arrange characters) {indices | WithinBounds bounds indices}
            (arrangements characters) ∧
          (arrangements characters).card = characters.length.factorial ∧
          ∀ arranged ∈ arrangements characters,
            (uniformIndices bounds).map (arrange characters) arranged =
              (characters.length.factorial : ENNReal)⁻¹) := by
  intro bounds recorded shuffled
  have sameBounds : shuffleBounds characters.length = bounds := shuffleBounds_eq _
  have answered := shuffleWith_eq_scripted pick characters state
  have answeredRecorded := shuffleWith_eq_scripted (Pick.recorded pick) characters (state, [])
  rw [Pick.answers_recorded, List.append_nil] at answeredRecorded
  have within : WithinBounds (shuffleBounds characters.length)
      (Pick.answers pick (shuffleBounds characters.length) state).1 :=
    below.answers (shuffleBounds_pos _) state
  rw [← sameBounds]
  refine ⟨⟨?_, ?_⟩, shuffleWith_perm pick characters state, ⟨_, within, ?_⟩, ?_⟩
  · exact (congrArg Prod.fst answeredRecorded).trans (congrArg Prod.fst answered).symm
  · exact (congrArg (·.2.2.reverse) answeredRecorded).trans (List.reverse_reverse _)
  · exact congrArg Prod.fst answered
  · intro distinct
    refine ⟨arrange_bijOn distinct, card_arrangements_of_nodup distinct, ?_⟩
    intro arranged member
    exact map_arrange_apply distinct (mem_arrangements_iff.mp member)

/-- Three letters, always with the first index: the answers are below three and below two. -/
theorem shuffle_unbiased_of_three_letters :
    let characters := ['a', 'b', 'c']
    let recorded := (Provider.ofIndex (Pick.recorded Pick.lowest) "lowest").rearrange
      characters ((), [])
    (Pick.StaysBelow Pick.lowest ∧ characters.Nodup) ∧
      recorded = (['b', 'c', 'a'], (), [2, 3]) ∧
        (arrangements characters).card = 6 ∧
          (uniformIndices [3, 2]).map (arrange characters) ['b', 'c', 'a'] = (6 : ENNReal)⁻¹ := by
  intro characters recorded
  have distinct : characters.Nodup := by decide
  obtain ⟨-, rearranges, -, unbiased⟩ :=
    shuffle_unbiased Pick.lowest_staysBelow "lowest" () characters
  obtain ⟨-, number, probability⟩ := unbiased distinct
  refine ⟨⟨Pick.lowest_staysBelow, distinct⟩, by decide, number, ?_⟩
  exact probability _ (mem_arrangements_iff.mpr rearranges)

end TextTemplate
