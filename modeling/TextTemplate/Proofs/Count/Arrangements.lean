import Mathlib.Algebra.BigOperators.Group.Finset.Basic
import Mathlib.Data.Char
import Mathlib.Data.List.Permutation
import Mathlib.Data.List.Sort
import Mathlib.Data.Nat.Choose.Basic
import TextTemplate.Count.Arrangements
import TextTemplate.Proofs.Count.Strings

/-!
# Exact counts of arrangements

A text has as many arrangements as the product of binomial coefficients says that places its
groups of equal characters one after the other.  The checked product is that number unless it
or a product on the way to it does not fit, and no division on the way leaves a remainder.
-/

namespace TextTemplate

/-! ## Binomial coefficients -/

namespace Arrangements

/-- No division of the loop leaves a remainder. -/
def DividesEvenly (offset step : Nat) : (steps result : Nat) → Prop
  | 0, _ => True
  | steps + 1, result =>
      ∀ product, Counted.mul result (offset + step) = .ok product →
        step ∣ product ∧ DividesEvenly offset (step + 1) steps (product / step)

/-- The next product of the loop is a multiple of its divisor: the quotient is a coefficient. -/
theorem choose_mul_next (offset taken : Nat) :
    (offset + taken).choose taken * (offset + (taken + 1)) =
      (offset + (taken + 1)).choose (taken + 1) * (taken + 1) := by
  rw [Nat.mul_comm]
  exact Nat.add_one_mul_choose_eq (offset + taken) taken

theorem dividesEvenly_choose (offset taken steps : Nat) :
    DividesEvenly offset (taken + 1) steps ((offset + taken).choose taken) := by
  induction steps generalizing taken with
  | zero => trivial
  | succ steps ih =>
      intro product multiplied
      obtain ⟨rfl, -⟩ := Counted.fit_eq_ok_iff.mp multiplied
      rw [choose_mul_next, Nat.mul_div_cancel _ (Nat.succ_pos taken)]
      exact ⟨Nat.dvd_mul_left _ _, ih (taken + 1)⟩

/-- A binomial coefficient is counted without a remainder on the way. -/
theorem binomial_dividesEvenly (places chosen : Nat) :
    let smaller := min chosen (places - chosen)
    DividesEvenly (places - smaller) 1 smaller 1 := by
  intro smaller
  have evenly := dividesEvenly_choose (places - smaller) 0 smaller
  rwa [Nat.choose_zero_right] at evenly

/-- The products of the loop grow: what fits behind some steps has fitted before them. -/
theorem choose_mul_le_next (offset taken : Nat) :
    (offset + taken).choose taken * taken ≤
      (offset + (taken + 1)).choose (taken + 1) * (taken + 1) := by
  rw [← choose_mul_next]
  exact Nat.mul_le_mul_left _ (by omega)

theorem choose_mul_le_of_steps (offset taken steps : Nat) :
    (offset + taken).choose taken * taken ≤
      (offset + (taken + steps)).choose (taken + steps) * (taken + steps) := by
  induction steps with
  | zero => exact Nat.le_refl _
  | succ steps ih => exact Nat.le_trans ih (choose_mul_le_next offset (taken + steps))

/--
Before every step stands a binomial coefficient, and so does one behind the last, as long as
the last product fits.
-/
theorem binomialFrom_eq {offset taken steps : Nat}
    (fits : (offset + taken).choose taken * taken < doubleWordSize) :
    binomialFrom offset (taken + 1) steps ((offset + taken).choose taken) =
      if (offset + (taken + steps)).choose (taken + steps) * (taken + steps) < doubleWordSize then
        .ok ((offset + (taken + steps)).choose (taken + steps))
      else .error .overflow := by
  induction steps generalizing taken with
  | zero => exact (if_pos fits).symm
  | succ steps ih =>
      have shift : taken + (steps + 1) = taken + 1 + steps := by omega
      rw [binomialFrom, Counted.mul, choose_mul_next, shift]
      by_cases next : (offset + (taken + 1)).choose (taken + 1) * (taken + 1) < doubleWordSize
      · rw [Counted.fit_of_lt next]
        dsimp only
        rw [Nat.mul_div_cancel _ (Nat.succ_pos taken), ih next]
      · rw [Counted.fit_of_le (Nat.le_of_not_lt next), if_neg]
        intro last
        exact next (Nat.lt_of_le_of_lt (choose_mul_le_of_steps offset (taken + 1) steps) last)

/-- The last and largest product on the way to a binomial coefficient. -/
def lastProduct (places chosen : Nat) : Nat :=
  places.choose chosen * min chosen (places - chosen)

/-- A binomial coefficient is counted exactly when the last product on the way to it fits. -/
theorem binomial_eq {places chosen : Nat} (within : chosen ≤ places) :
    binomial places chosen =
      if lastProduct places chosen < doubleWordSize then .ok (places.choose chosen)
      else .error .overflow := by
  have counted := @binomialFrom_eq (places - min chosen (places - chosen)) 0
    (min chosen (places - chosen)) (by rw [Nat.mul_zero]; decide)
  have coefficient : places.choose (min chosen (places - chosen)) = places.choose chosen := by
    rcases Nat.le_total chosen (places - chosen) with small | large
    · rw [Nat.min_eq_left small]
    · rw [Nat.min_eq_right large, Nat.choose_symm within]
  have whole : places - min chosen (places - chosen) + min chosen (places - chosen) = places := by
    omega
  rwa [Nat.choose_zero_right, Nat.zero_add, Nat.zero_add, whole, coefficient] at counted

end Arrangements

/-! ## Arrangements of a text -/

/-- The arrangements of the characters of a text. -/
def arrangements (text : List Char) : Finset (List Char) := text.permutations.toFinset

@[simp]
theorem mem_arrangements_iff {text arranged : List Char} :
    arranged ∈ arrangements text ↔ arranged.Perm text := by
  rw [arrangements, List.mem_toFinset, List.mem_permutations]

@[simp]
theorem arrangements_nil : arrangements [] = {[]} := by
  ext arranged
  simp

theorem arrangements_eq_of_perm {text other : List Char} (same : text.Perm other) :
    arrangements text = arrangements other := by
  ext arranged
  simp only [mem_arrangements_iff]
  exact ⟨fun rearranges => rearranges.trans same, fun rearranges => rearranges.trans same.symm⟩

theorem card_arrangements_of_nodup {text : List Char} (distinct : text.Nodup) :
    (arrangements text).card = text.length.factorial := by
  rw [arrangements, List.toFinset_card_of_nodup (List.nodup_permutations text distinct),
    List.length_permutations]

theorem filter_bne_eq_self {character : Char} {text : List Char} (absent : character ∉ text) :
    text.filter (· != character) = text :=
  List.filter_eq_self.mpr fun _ member => bne_iff_ne.mpr fun same => absent (same ▸ member)

/-- The texts that come about when some copies of a character are put into a text. -/
def insertions (character : Char) : (copies : Nat) → List Char → Finset (List Char)
  | 0, text => {text}
  | copies + 1, [] => {List.replicate (copies + 1) character}
  | copies + 1, first :: rest =>
      (insertions character copies (first :: rest)).image (character :: ·) ∪
        (insertions character (copies + 1) rest).image (first :: ·)
termination_by copies text => copies + text.length

theorem mem_insertions_iff {character : Char} {copies : Nat} {text inserted : List Char}
    (absent : character ∉ text) :
    inserted ∈ insertions character copies text ↔
      inserted.filter (· != character) = text ∧ inserted.count character = copies := by
  fun_induction insertions character copies text generalizing inserted with
  | case1 text =>
      rw [Finset.mem_singleton, List.count_eq_zero]
      constructor
      · rintro rfl
        exact ⟨filter_bne_eq_self absent, absent⟩
      · rintro ⟨rfl, none⟩
        exact (filter_bne_eq_self none).symm
  | case2 copies =>
      simp only [Finset.mem_singleton, List.eq_replicate_iff, List.filter_eq_nil_iff,
        bne_iff_ne, ne_eq, not_not]
      constructor
      · rintro ⟨length, all⟩
        refine ⟨all, Eq.trans ?_ length⟩
        exact List.count_eq_length.mpr fun other member => (all other member).symm
      · rintro ⟨all, count⟩
        refine ⟨Eq.trans (Eq.symm ?_) count, all⟩
        exact List.count_eq_length.mpr fun other member => (all other member).symm
  | case3 copies first rest ih ihRest =>
      obtain ⟨differ, absentLater⟩ : character ≠ first ∧ character ∉ rest := by
        simpa using absent
      simp only [Finset.mem_union, Finset.mem_image, ih absent, ihRest absentLater]
      -- The first character tells the two halves apart: it is a copy, or it was there before.
      cases inserted with
      | nil => simp
      | cons next tail =>
          by_cases copy : next = character
          · subst copy
            simp [differ.symm]
          · have kept : (next != character) = true := bne_iff_ne.mpr copy
            simp only [List.cons.injEq, Ne.symm copy, false_and, and_false, exists_false,
              false_or, ↓existsAndEq, and_true, List.filter_cons, kept, ↓reduceIte,
              List.count_cons_of_ne copy]
            constructor
            · rintro ⟨⟨rfl, count⟩, rfl⟩
              exact ⟨⟨rfl, rfl⟩, count⟩
            · rintro ⟨⟨rfl, rfl⟩, count⟩
              exact ⟨⟨rfl, count⟩, rfl⟩

theorem card_insertions {character : Char} {copies : Nat} {text : List Char}
    (absent : character ∉ text) :
    (insertions character copies text).card = (text.length + copies).choose copies := by
  fun_induction insertions character copies text with
  | case1 text => simp
  | case2 copies => simp
  | case3 copies first rest ih ihRest =>
      obtain ⟨differ, absentLater⟩ : character ≠ first ∧ character ∉ rest := by
        simpa using absent
      have apart : Disjoint ((insertions character copies (first :: rest)).image (character :: ·))
          ((insertions character (copies + 1) rest).image (first :: ·)) := by
        rw [Finset.disjoint_left]
        simp only [Finset.mem_image]
        rintro _ ⟨text, -, rfl⟩ ⟨other, -, same⟩
        exact differ (List.cons.inj same).1.symm
      rw [Finset.card_union_of_disjoint apart,
        Finset.card_image_of_injective _ List.cons_injective,
        Finset.card_image_of_injective _ List.cons_injective, ih absent, ihRest absentLater,
        List.length_cons]
      have places : rest.length + (copies + 1) = rest.length + 1 + copies := by omega
      rw [places]
      exact (Nat.choose_succ_succ _ _).symm

/-- Copies of a new character join an arrangement at any places. -/
theorem arrangements_append_replicate {character : Char} {before : List Char}
    (absent : character ∉ before) (copies : Nat) :
    arrangements (before ++ List.replicate copies character) =
      (arrangements before).biUnion (insertions character copies) := by
  ext arranged
  simp only [Finset.mem_biUnion, mem_arrangements_iff]
  constructor
  · intro rearranges
    have others := rearranges.filter (· != character)
    have number := rearranges.count_eq character
    rw [List.filter_append, filter_bne_eq_self absent,
      List.filter_replicate_of_neg (by simp), List.append_nil] at others
    rw [List.count_append, List.count_eq_zero_of_not_mem absent, Nat.zero_add,
      List.count_replicate_self] at number
    refine ⟨_, others, (mem_insertions_iff ?_).mpr ⟨rfl, number⟩⟩
    exact fun member => absent (others.mem_iff.mp member)
  · -- What was inserted are copies, so a text is its other characters and as many copies.
    rintro ⟨others, rearranges, inserted⟩
    have absentToo : character ∉ others := fun member => absent (rearranges.mem_iff.mp member)
    obtain ⟨rfl, rfl⟩ := (mem_insertions_iff absentToo).mp inserted
    have parts := List.filter_append_perm (· != character) arranged
    simp only [bne, Bool.not_not, List.filter_beq] at parts
    exact parts.symm.trans (rearranges.append_right _)

theorem card_arrangements_append_replicate {character : Char} {before : List Char}
    (absent : character ∉ before) (copies : Nat) :
    (arrangements (before ++ List.replicate copies character)).card =
      (arrangements before).card * (before.length + copies).choose copies := by
  have absentFrom : ∀ others ∈ arrangements before, character ∉ others :=
    fun others member found => absent ((mem_arrangements_iff.mp member).mem_iff.mp found)
  rw [arrangements_append_replicate absent, Finset.card_biUnion]
  · apply Finset.sum_const_nat
    intro others member
    rw [card_insertions (absentFrom others member), (mem_arrangements_iff.mp member).length_eq]
  · intro first inFirst second inSecond differ
    rw [Function.onFun, Finset.disjoint_left]
    intro arranged insertedFirst insertedSecond
    have ofFirst := (mem_insertions_iff (absentFrom first inFirst)).mp insertedFirst
    have ofSecond := (mem_insertions_iff (absentFrom second inSecond)).mp insertedSecond
    exact differ (ofFirst.1.symm.trans ofSecond.1)

/-! ## Groups in their places -/

namespace Arrangements

/--
The groups in the order in which they get their places: how many places there are then, and
how many of them the group gets.
-/
def placements (placed : Nat) : List Nat → List (Nat × Nat)
  | [] => []
  | size :: rest => (placed + size, size) :: placements (placed + size) rest

/-- In how many ways groups get their places, one after the other. -/
def ways (placed : Nat) : List Nat → Nat
  | [] => 1
  | size :: rest => (placed + size).choose size * ways (placed + size) rest

theorem ways_pos (placed : Nat) (sizes : List Nat) : 0 < ways placed sizes := by
  induction sizes generalizing placed with
  | nil => exact Nat.zero_lt_one
  | cons size rest ih => exact Nat.mul_pos (Nat.choose_pos (Nat.le_add_left _ _)) (ih _)

/-- A product of coefficients is counted exactly when it and all products on the way fit. -/
theorem multinomialFrom_eq {placed total : Nat} (fits : total < doubleWordSize)
    (sizes : List Nat) :
    multinomialFrom placed total sizes =
      if (∀ placement ∈ placements placed sizes,
          lastProduct placement.1 placement.2 < doubleWordSize) ∧
        total * ways placed sizes < doubleWordSize then .ok (total * ways placed sizes)
      else .error .overflow := by
  induction sizes generalizing placed total with
  | nil => simp [multinomialFrom, placements, ways, fits]
  | cons size rest ih =>
      rw [multinomialFrom, binomial_eq (Nat.le_add_left size placed)]
      by_cases last : lastProduct (placed + size) size < doubleWordSize
      · rw [if_pos last]
        by_cases product : total * (placed + size).choose size < doubleWordSize
        · simp only [Counted.mul, Counted.fit_of_lt product, ih product, placements, ways,
            List.forall_mem_cons, last, true_and, Nat.mul_assoc]
        · simp only [Counted.mul, Counted.fit_of_le (Nat.le_of_not_lt product)]
          rw [if_neg]
          rintro ⟨-, whole⟩
          rw [ways, ← Nat.mul_assoc] at whole
          exact product (Nat.lt_of_le_of_lt (Nat.le_mul_of_pos_right _ (ways_pos _ _)) whole)
      · rw [if_neg last, if_neg]
        rintro ⟨every, -⟩
        exact last (every _ List.mem_cons_self)

section Runs

variable {current : Char} {before rest : List Char}

/-- Characters that were placed before a run come before everything behind the run too. -/
theorem placed_lt_of_switch {next : Char}
    (sorted : (current :: next :: rest).Pairwise (· ≤ ·)) (differ : next ≠ current)
    (placed : ∀ earlier ∈ before, earlier < current) (size : Nat) :
    ∀ earlier ∈ before ++ List.replicate size current, earlier < next := by
  have lower : current < next :=
    lt_of_le_of_ne ((List.pairwise_cons.mp sorted).1 next List.mem_cons_self) differ.symm
  intro earlier member
  rcases List.mem_append.mp member with inBefore | copy
  · exact (placed earlier inBefore).trans lower
  · rwa [List.eq_of_mem_replicate copy]

/-- From any group of a sorted text on, placing the groups makes all arrangements. -/
theorem card_mul_ways (sorted : (current :: rest).Pairwise (· ≤ ·))
    (placed : ∀ earlier ∈ before, earlier < current) (size : Nat) :
    (arrangements before).card * ways before.length (runLengthsFrom current size rest) =
      (arrangements (before ++ (List.replicate size current ++ rest))).card := by
  have absent : current ∉ before := fun member => lt_irrefl _ (placed current member)
  induction rest generalizing current size before with
  | nil =>
      rw [runLengthsFrom, ways, ways, Nat.mul_one, List.append_nil,
        card_arrangements_append_replicate absent]
  | cons next rest ih =>
      have sortedRest := (List.pairwise_cons.mp sorted).2
      rw [runLengthsFrom]
      split
      · next same =>
          subst same
          rw [ih sortedRest placed (size + 1) absent, List.replicate_succ', List.append_assoc,
            List.singleton_append]
      · next differ =>
          have earlier := placed_lt_of_switch sorted differ placed size
          have behind := ih sortedRest earlier 1 fun member => lt_irrefl _ (earlier next member)
          rw [List.length_append, List.length_replicate,
            card_arrangements_append_replicate absent] at behind
          rw [ways, ← Nat.mul_assoc, behind, List.append_assoc, List.replicate_one,
            List.singleton_append]

/-- The last group of a text in order has as many places as there are characters. -/
theorem counts_of_group (placed : ∀ earlier ∈ before, earlier < current)
    (behind : ∀ later ∈ rest, current < later) (size : Nat) :
    let text := before ++ (List.replicate size current ++ rest)
    text.countP (· ≤ current) = before.length + size ∧ text.count current = size := by
  have upTo : before.countP (· ≤ current) = before.length :=
    List.countP_eq_length.mpr fun earlier member => by simpa using (placed earlier member).le
  have noneBehind : rest.countP (· ≤ current) = 0 :=
    List.countP_eq_zero.mpr fun later member => by simpa using behind later member
  have notBefore : before.count current = 0 :=
    List.count_eq_zero.mpr fun member => lt_irrefl _ (placed current member)
  have notBehind : rest.count current = 0 :=
    List.count_eq_zero.mpr fun member => lt_irrefl _ (behind current member)
  simp [upTo, noneBehind, notBefore, notBehind, List.countP_replicate]

/-- Each group gets its places among the characters up to its own. -/
theorem forall_placements_iff {condition : Nat → Nat → Prop}
    (sorted : (current :: rest).Pairwise (· ≤ ·))
    (placed : ∀ earlier ∈ before, earlier < current) (size : Nat) :
    let text := before ++ (List.replicate size current ++ rest)
    (∀ placement ∈ placements before.length (runLengthsFrom current size rest),
        condition placement.1 placement.2) ↔
      ∀ character ∈ current :: rest,
        condition (text.countP (· ≤ character)) (text.count character) := by
  induction rest generalizing current size before with
  | nil =>
      intro text
      obtain ⟨places, copies⟩ := @counts_of_group current before [] placed (by simp) size
      simp only [runLengthsFrom, placements, List.forall_mem_singleton]
      rw [places, copies]
  | cons next rest ih =>
      intro text
      obtain ⟨lowest, sortedRest⟩ := List.pairwise_cons.mp sorted
      rw [runLengthsFrom]
      split
      · next same =>
          subst same
          have longer := ih sortedRest placed (size + 1)
          rw [List.replicate_succ', List.append_assoc, List.singleton_append] at longer
          simpa [text] using longer
      · next differ =>
          have earlier := placed_lt_of_switch sorted differ placed size
          have later := ih sortedRest earlier 1
          simp only [List.length_append, List.length_replicate, List.append_assoc,
            List.replicate_one, List.singleton_append] at later
          have above : ∀ later ∈ next :: rest, current < later := by
            intro later member
            have lower := lt_of_le_of_ne (lowest next List.mem_cons_self) (Ne.symm differ)
            rcases List.mem_cons.mp member with rfl | inRest
            · exact lower
            · exact lower.trans_le ((List.pairwise_cons.mp sortedRest).1 later inRest)
          obtain ⟨places, copies⟩ := counts_of_group placed above size
          rw [placements, List.forall_mem_cons, List.forall_mem_cons, places, copies]
          exact and_congr Iff.rfl later

end Runs

/-- Placing all groups makes all arrangements. -/
theorem ways_groupSizes (text : List Char) :
    ways 0 (groupSizes text) = (arrangements text).card := by
  have sorted : (text.mergeSort (· ≤ ·)).Pairwise (· ≤ ·) :=
    List.pairwise_mergeSort' (· ≤ ·) text
  rw [← arrangements_eq_of_perm (List.mergeSort_perm text (· ≤ ·)), groupSizes]
  cases characters : text.mergeSort (· ≤ ·) with
  | nil => simp [runLengths, ways]
  | cons first rest =>
      rw [characters] at sorted
      have number := @card_mul_ways first [] rest sorted (by simp) 1
      simpa [runLengths] using number

theorem forall_placements_groupSizes_iff {condition : Nat → Nat → Prop} (text : List Char) :
    (∀ placement ∈ placements 0 (groupSizes text), condition placement.1 placement.2) ↔
      ∀ character ∈ text,
        condition (text.countP (· ≤ character)) (text.count character) := by
  have sorted : (text.mergeSort (· ≤ ·)).Pairwise (· ≤ ·) :=
    List.pairwise_mergeSort' (· ≤ ·) text
  have rearranged := List.mergeSort_perm text (· ≤ ·)
  simp only [← rearranged.mem_iff, ← rearranged.countP_eq, ← rearranged.count_eq, groupSizes]
  cases characters : text.mergeSort (· ≤ ·) with
  | nil => simp [runLengths, placements]
  | cons first rest =>
      rw [characters] at sorted
      exact @forall_placements_iff first [] rest condition sorted (by simp) 1

end Arrangements

/-! ## The checked count -/

/--
All products fit on the way to the number of arrangements: each character gets its places among
those of the characters up to it.
-/
def ProductsFit (text : List Char) : Prop :=
  ∀ character ∈ text,
    Arrangements.lastProduct (text.countP (· ≤ character)) (text.count character) <
      doubleWordSize

instance (text : List Char) : Decidable (ProductsFit text) :=
  inferInstanceAs (Decidable (∀ character ∈ text, _ < doubleWordSize))

/-- The arrangements of a text are counted exactly when they and all products on the way fit. -/
theorem countArrangements_eq (text : List Char) :
    countArrangements text =
      if ProductsFit text ∧ (arrangements text).card < doubleWordSize then
        .ok (arrangements text).card
      else .error .overflow := by
  have products := @Arrangements.forall_placements_groupSizes_iff
    (fun places size => Arrangements.lastProduct places size < doubleWordSize) text
  rw [countArrangements, Arrangements.multinomial, Arrangements.multinomialFrom_eq (by decide),
    Nat.one_mul, Arrangements.ways_groupSizes]
  exact if_congr (and_congr products Iff.rfl) rfl rfl

/-- Where the arrangements of a text are counted, their number is the exact one. -/
theorem eq_card_of_countArrangements {text : List Char} {number : Nat}
    (counted : countArrangements text = .ok number) : number = (arrangements text).card := by
  rw [countArrangements_eq] at counted
  split at counted
  · exact (Except.ok.inj counted).symm
  · cases counted

end TextTemplate
