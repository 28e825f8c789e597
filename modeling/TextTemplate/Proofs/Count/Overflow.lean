import TextTemplate.Proofs.Count.Renderings

/-!
# Where counts of literals overflow

A binomial coefficient is counted by way of products that are larger than itself.  So a count
of arrangements may be refused although it fits, but never one that leaves room for a factor of
half the length of the text.
-/

namespace TextTemplate

namespace Arrangements

/-- No group has more ways to its places than all groups together. -/
theorem choose_le_ways (placed : Nat) (sizes : List Nat) :
    ∀ placement ∈ placements placed sizes,
      placement.1.choose placement.2 ≤ ways placed sizes := by
  induction sizes generalizing placed with
  | nil => simp [placements]
  | cons size rest ih =>
      rw [placements, List.forall_mem_cons, ways]
      constructor
      · exact Nat.le_mul_of_pos_right _ (ways_pos _ rest)
      · intro placement member
        have some : 0 < (placed + size).choose size := Nat.choose_pos (Nat.le_add_left _ _)
        exact Nat.le_trans (ih _ placement member) (Nat.le_mul_of_pos_left _ some)

end Arrangements

/-- Every product on the way is at most half the length of the text times the whole number. -/
theorem productsFit_of_room {text : List Char}
    (room : (arrangements text).card * (text.length / 2) < doubleWordSize) :
    ProductsFit text := by
  have coefficients := (@Arrangements.forall_placements_groupSizes_iff
    (fun places size => places.choose size ≤ (arrangements text).card) text).mp (by
      rw [← Arrangements.ways_groupSizes]
      exact Arrangements.choose_le_ways 0 _)
  intro character member
  have places := List.countP_le_length (p := (· ≤ character)) (l := text)
  refine Nat.lt_of_le_of_lt ?_ room
  rw [Arrangements.lastProduct]
  exact Nat.mul_le_mul (coefficients character member) (by omega)

/-- Two letters are arranged by choosing the places of one of them. -/
theorem card_arrangements_of_two (copies more : Nat) :
    (arrangements (List.replicate copies 'a' ++ List.replicate more 'b')).card =
      (copies + more).choose more := by
  have ofFirst : (arrangements (List.replicate copies 'a')).card = 1 := by
    have alone := @card_arrangements_append_replicate 'a' [] (by simp) copies
    simpa using alone
  rw [card_arrangements_append_replicate (by simp), ofFirst, List.length_replicate, Nat.one_mul]

namespace Node

/--
A permutation of literals is counted exactly when the number of arrangements and all products on
the way to it fit.  A number that leaves room for a factor of half the length of the text is
counted.
-/
theorem count_of_literals (texts : List (List Char)) :
    (Node.permutation (texts.map .literal)).count =
        .done (if ProductsFit texts.flatten ∧ (arrangements texts.flatten).card < doubleWordSize
          then .ok (arrangements texts.flatten).card else .error .overflow) ∧
      ((arrangements texts.flatten).card * max 1 (texts.flatten.length / 2) < doubleWordSize →
        (Node.permutation (texts.map .literal)).count =
          .done (.ok (arrangements texts.flatten).card)) := by
  have counted := count_permutation_literals texts
  rw [countArrangements_eq] at counted
  refine ⟨counted, ?_⟩
  intro room
  have half := Nat.mul_le_mul_left (arrangements texts.flatten).card
    (Nat.le_max_right 1 (texts.flatten.length / 2))
  have whole := Nat.mul_le_mul_left (arrangements texts.flatten).card
    (Nat.le_max_left 1 (texts.flatten.length / 2))
  rw [Nat.mul_one] at whole
  rw [counted, if_pos]
  exact ⟨productsFit_of_room (Nat.lt_of_le_of_lt half room), Nat.lt_of_le_of_lt whole room⟩

/-- One character less than where counting two letters begins to fail, the count is there. -/
theorem count_of_literals_with_room :
    let texts := [List.replicate 62 'a', List.replicate 63 'b']
    (arrangements texts.flatten).card * max 1 (texts.flatten.length / 2) < doubleWordSize ∧
      (Node.permutation (texts.map .literal)).count =
        .done (.ok 3017467217880703353213932318284164000) := by
  intro texts
  have coefficient : Nat.choose 125 63 = 3017467217880703353213932318284164000 := by
    rw [Nat.choose_eq_descFactorial_div_factorial]
    decide +kernel
  have number : (arrangements texts.flatten).card = 3017467217880703353213932318284164000 := by
    simpa [texts, coefficient] using! card_arrangements_of_two 62 63
  have room : (arrangements texts.flatten).card * max 1 (texts.flatten.length / 2) <
      doubleWordSize := by
    rw [number]
    decide +kernel
  have counted := (count_of_literals texts).2 room
  rw [number] at counted
  exact ⟨room, counted⟩

/-- The last product for two groups of 63 characters does not fit, although their count does. -/
theorem count_overflows_for_fitting_number :
    let texts := [List.replicate 63 'a', List.replicate 63 'b']
    (arrangements texts.flatten).card = 6034934435761406706427864636568328000 ∧
      6034934435761406706427864636568328000 < doubleWordSize ∧
        (Node.permutation (texts.map .literal)).count = .done (.error .overflow) := by
  intro texts
  have coefficient : Nat.choose 126 63 = 6034934435761406706427864636568328000 := by
    rw [Nat.choose_eq_descFactorial_div_factorial]
    decide +kernel
  have number : (arrangements texts.flatten).card = 6034934435761406706427864636568328000 := by
    simpa [texts, coefficient] using! card_arrangements_of_two 63 63
  refine ⟨number, by decide, ?_⟩
  rw [count_permutation_literals, countArrangements_eq, if_neg]
  rintro ⟨fits, -⟩
  have last := fits 'b' (by simp [texts])
  have places : texts.flatten.countP (· ≤ 'b') = 126 := by decide +kernel
  have copies : texts.flatten.count 'b' = 63 := by decide +kernel
  rw [places, copies, Arrangements.lastProduct, coefficient] at last
  exact absurd last (by decide)

end Node

end TextTemplate
