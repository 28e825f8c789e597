import Mathlib.Algebra.BigOperators.Intervals
import Mathlib.Algebra.BigOperators.Ring.Finset
import Mathlib.Algebra.Order.BigOperators.Group.Finset
import TextTemplate.Count.Strings

/-!
# Exact counts of strings

Checked powers and checked sums of powers are the numbers themselves as long as these fit, and
faults from then on: nothing on the way is larger than the whole.  The powers of a base of at
least two double the sum with each term, so after 128 terms there is room for no other, however
many there are to add.
-/

namespace TextTemplate

theorem doubleWordSize_eq_two_pow : doubleWordSize = 2 ^ 128 := by
  simp [doubleWordSize]

/-- A power of a base of at least two is no less than any power of two with its exponent. -/
theorem two_pow_le_pow {base least exponent : Nat} (large : 2 ≤ base) (reached : least ≤ exponent) :
    2 ^ least ≤ base ^ exponent :=
  Nat.le_trans (Nat.pow_le_pow_right (by decide) reached) (Nat.pow_le_pow_left large exponent)

namespace Counted

theorem fit_of_lt {number : Nat} (fits : number < doubleWordSize) : fit number = .ok number :=
  if_pos fits

theorem fit_of_le {number : Nat} (large : doubleWordSize ≤ number) :
    fit number = .error .overflow :=
  if_neg (Nat.not_lt.mpr large)

/--
A count that goes into a larger one may be checked on the way: if it does not fit, the larger
one does not either.
-/
theorem finish_fit_of_le {γ : Type} (finish : Counted → γ) {number total : Nat}
    {next : Nat → γ} (part : number ≤ total)
    (goesOn : number < doubleWordSize → next number = finish (fit total)) :
    (match fit number with
      | .error fault => finish (.error fault)
      | .ok value => next value) = finish (fit total) := by
  by_cases fits : number < doubleWordSize
  · rw [fit_of_lt fits]
    exact goesOn fits
  · rw [fit_of_le (Nat.le_of_not_lt fits),
      fit_of_le (Nat.le_trans (Nat.le_of_not_lt fits) part)]

/-! ## Powers -/

/-- A power is checked factor by factor, and no product on the way is larger than the whole. -/
theorem powFrom_eq_fit (base : Nat) {times product : Nat} (fits : product < doubleWordSize) :
    powFrom base times product = fit (product * base ^ times) := by
  induction times generalizing product with
  | zero => rw [powFrom, pow_zero, Nat.mul_one, fit_of_lt fits]
  | succ times ih =>
      have part : product * base ≤ product * base ^ (times + 1) :=
        Nat.mul_le_mul_left product (Nat.le_self_pow (Nat.succ_ne_zero times) base)
      rw [powFrom]
      refine finish_fit_of_le (fun counted => counted) part fun productFits => ?_
      rw [ih productFits, Nat.mul_assoc, ← Nat.pow_succ']

/-- An exponent that does not fit in half a word leads past a double word in any case. -/
theorem pow_eq_fit {base : Nat} (exponent : Nat) (large : 2 ≤ base) :
    pow base exponent = fit (base ^ exponent) := by
  unfold pow
  split
  · rw [powFrom_eq_fit base (by decide), Nat.one_mul]
  · next high =>
      have wide : 128 ≤ exponent := Nat.le_trans (by decide) (Nat.le_of_not_lt high)
      have grows : doubleWordSize ≤ base ^ exponent := calc
        doubleWordSize = 2 ^ 128 := doubleWordSize_eq_two_pow
        _ ≤ base ^ exponent := two_pow_le_pow large wide
      exact (fit_of_le grows).symm

end Counted

namespace PowerSum

open Counted

variable {base terms added : Nat} {state later : PowerSum} {result : Counted}

/-! ## Sums of powers -/

theorem addPower_eq (large : 2 ≤ base) (state : PowerSum) :
    addPower base state =
      (fit (state.sum + base ^ state.exponent)).map (PowerSum.mk (state.exponent + 1)) := by
  rw [addPower, pow_eq_fit _ large]
  refine finish_fit_of_le (fun counted => counted.map (PowerSum.mk (state.exponent + 1)))
    (Nat.le_add_left _ _) fun _ => ?_
  unfold add
  cases fit (state.sum + base ^ state.exponent) <;> rfl

theorem addPower_eq_ok_iff (large : 2 ≤ base) :
    addPower base state = .ok later ↔
      later = ⟨state.exponent + 1, state.sum + base ^ state.exponent⟩ ∧
        state.sum + base ^ state.exponent < doubleWordSize := by
  rw [addPower_eq large]
  by_cases fits : state.sum + base ^ state.exponent < doubleWordSize
  · rw [fit_of_lt fits]
    simp [Except.map, fits, eq_comm]
  · rw [fit_of_le (Nat.le_of_not_lt fits)]
    simp [Except.map, fits]

/-- A checked sum of powers is the sum of all of them. -/
theorem addPowers_eq (large : 2 ≤ base) (terms : Nat) (fits : state.sum < doubleWordSize) :
    addPowers base terms state =
      (fit (state.sum + ∑ step ∈ Finset.range terms, base ^ (state.exponent + step))).map
        (PowerSum.mk (state.exponent + terms)) := by
  induction terms generalizing state with
  | zero =>
      rw [addPowers, Finset.sum_range_zero, Nat.add_zero, Nat.add_zero, fit_of_lt fits]
      rfl
  | succ terms ih =>
      have parts : ∑ step ∈ Finset.range (terms + 1), base ^ (state.exponent + step) =
          base ^ state.exponent +
            ∑ step ∈ Finset.range terms, base ^ (state.exponent + 1 + step) := by
        rw [Finset.sum_range_succ', Nat.add_comm]
        simp only [Nat.add_zero, Nat.add_comm, Nat.add_left_comm]
      rw [parts, addPowers, addPower_eq large]
      by_cases next : state.sum + base ^ state.exponent < doubleWordSize
      · rw [fit_of_lt next]
        refine (ih next).trans ?_
        rw [Nat.add_assoc, Nat.add_assoc, Nat.add_comm 1 terms]
      · rw [fit_of_le (Nat.le_of_not_lt next), fit_of_le (by omega)]
        rfl

/-! ## Runs -/

/--
With so many powers still to add, the loop adds some of them and then returns a result: the sum
when there are none left, or the fault of the first one that cannot be added.
-/
inductive Returns (base : Nat) : (terms : Nat) → PowerSum → (added : Nat) → Counted → Prop where
  | finished (state : PowerSum) : Returns base 0 state 0 (.ok state.sum)
  | refused {terms : Nat} {state : PowerSum} {fault : CountFault}
      (refuses : addPower base state = .error fault) :
      Returns base (terms + 1) state 0 (.error fault)
  | later {terms added : Nat} {state later : PowerSum} {result : Counted}
      (adds : addPower base state = .ok later) (rest : Returns base terms later added result) :
      Returns base (terms + 1) state (added + 1) result

theorem exists_returns (base terms : Nat) (state : PowerSum) :
    ∃ added, Returns base terms state added ((addPowers base terms state).map PowerSum.sum) := by
  induction terms generalizing state with
  | zero => exact ⟨0, .finished state⟩
  | succ terms ih =>
      rw [addPowers]
      cases adds : addPower base state with
      | error fault => exact ⟨0, .refused adds⟩
      | ok later =>
          obtain ⟨added, rest⟩ := ih later
          exact ⟨added + 1, .later adds rest⟩

theorem Returns.unique {other : Nat} {otherResult : Counted}
    (first : Returns base terms state added result)
    (second : Returns base terms state other otherResult) :
    added = other ∧ result = otherResult := by
  induction first generalizing other with
  | finished =>
      cases second
      exact ⟨rfl, rfl⟩
  | refused refuses =>
      cases second with
      | refused othersRefuses =>
          rw [refuses] at othersRefuses
          cases othersRefuses
          exact ⟨rfl, rfl⟩
      | later adds =>
          rw [refuses] at adds
          cases adds
  | later adds rest ih =>
      cases second with
      | refused refuses =>
          rw [adds] at refuses
          cases refuses
      | later othersAdds othersRest =>
          rw [adds] at othersAdds
          cases othersAdds
          obtain ⟨rfl, rfl⟩ := ih othersRest
          exact ⟨rfl, rfl⟩

/--
So many powers of a base of at least two have been added, and their sum fits: each of them has at
least doubled what is one more than the sum.
-/
structure HasGrown (added : Nat) (state : PowerSum) : Prop where
  exponent : added ≤ state.exponent
  sum : 2 ^ added ≤ state.sum + 1
  fits : state.sum < doubleWordSize

namespace HasGrown

theorem start (low : Nat) : HasGrown 0 ⟨low, 0⟩ where
  exponent := Nat.zero_le low
  sum := Nat.le_refl 1
  fits := (by decide : 0 < doubleWordSize)

theorem addPower (grown : HasGrown added state) (large : 2 ≤ base)
    (adds : addPower base state = .ok later) : HasGrown (added + 1) later := by
  obtain ⟨rfl, fits⟩ := (addPower_eq_ok_iff large).mp adds
  refine ⟨Nat.succ_le_succ grown.exponent, ?_, fits⟩
  have doubled := Nat.add_le_add grown.sum (two_pow_le_pow large grown.exponent)
  rw [← Nat.two_mul, ← Nat.pow_succ'] at doubled
  exact Nat.le_trans doubled (Nat.le_of_eq (Nat.add_right_comm _ _ _))

theorem added_le (grown : HasGrown added state) : added ≤ 128 := by
  have room : 2 ^ added ≤ 2 ^ 128 := calc
    2 ^ added ≤ state.sum + 1 := grown.sum
    _ ≤ doubleWordSize := grown.fits
    _ = 2 ^ 128 := doubleWordSize_eq_two_pow
  exact (Nat.pow_le_pow_iff_right (by decide)).mp room

end HasGrown

theorem Returns.added_le {before : Nat} (returns : Returns base terms state added result)
    (large : 2 ≤ base) (grown : HasGrown before state) : before + added ≤ 128 := by
  induction returns generalizing before with
  | finished => exact grown.added_le
  | refused => exact grown.added_le
  | later adds rest ih =>
      have behind := ih (grown.addPower large adds)
      omega

end PowerSum

/-! ## Strings -/

open PowerSum

theorem countStrings_eq_addPowers {base : Nat} (large : 2 ≤ base) (low high : Nat) :
    countStrings base low high =
      (addPowers base (high + 1 - low) ⟨low, 0⟩).map PowerSum.sum := by
  match base, large with
  | base + 2, _ => rfl

/-- Over two members or more, strings are counted exactly for all bounds of their length. -/
theorem countStrings_of_two_le {base : Nat} (large : 2 ≤ base) (low high : Nat) :
    countStrings base low high =
      Counted.fit (∑ length ∈ Finset.Icc low high, base ^ length) := by
  rw [countStrings_eq_addPowers large, addPowers_eq large _ (HasGrown.start low).fits, Nat.zero_add,
    ← Finset.Ico_add_one_right_eq_Icc, Finset.sum_Ico_eq_sum_range]
  cases Counted.fit (∑ step ∈ Finset.range (high + 1 - low), base ^ (low + step)) <;> rfl

/-- Strings of all lengths between two bounds are counted exactly, for every base. -/
theorem countStrings_eq_fit (base : Nat) {low high : Nat} (ordered : low ≤ high)
    (lengths : high - low < wordSize) :
    countStrings base low high =
      Counted.fit (∑ length ∈ Finset.Icc low high, base ^ length) := by
  have words : wordSize < doubleWordSize := by decide
  match base with
  | 0 =>
      have empty : ∑ length ∈ Finset.Icc low high, 0 ^ length = if low = 0 then 1 else 0 := by
        simp only [zero_pow_eq, Finset.sum_ite_eq', Finset.mem_Icc, Nat.zero_le, and_true,
          Nat.le_zero_eq]
      rw [empty, countStrings, Counted.fit_of_lt]
      split <;> decide
  | 1 =>
      have ones : ∑ length ∈ Finset.Icc low high, 1 ^ length = high - low + 1 := by
        simp only [one_pow, Finset.sum_const, Nat.card_Icc, Nat.nsmul_eq_mul, Nat.mul_one]
        omega
      rw [ones, countStrings, Counted.fit_of_lt (by omega)]
  | base + 2 => exact countStrings_of_two_le (Nat.le_add_left 2 base) low high

/--
Strings of all lengths between two words are counted exactly, or refused because their number
does not fit.  Over two members or more, the count is returned after 128 terms at most.
-/
theorem countStrings_exact_in_few_terms (base : Nat) {low high : Nat} (ordered : low ≤ high)
    (word : high < wordSize) :
    let total := ∑ length ∈ Finset.Icc low high, base ^ length
    (total < doubleWordSize → countStrings base low high = .ok total) ∧
      (doubleWordSize ≤ total → countStrings base low high = .error .overflow) ∧
      (2 ≤ base → ∃ added ≤ 128, ∀ ran result,
        Returns base (high + 1 - low) ⟨low, 0⟩ ran result ↔
          ran = added ∧ result = countStrings base low high) := by
  intro total
  have counted : countStrings base low high = Counted.fit total :=
    countStrings_eq_fit base ordered (Nat.lt_of_le_of_lt (Nat.sub_le high low) word)
  refine ⟨fun fits => ?_, fun overflows => ?_, fun large => ?_⟩
  · rw [counted, Counted.fit_of_lt fits]
  · rw [counted, Counted.fit_of_le overflows]
  · obtain ⟨added, returns⟩ := exists_returns base (high + 1 - low) ⟨low, 0⟩
    rw [← countStrings_eq_addPowers large] at returns
    have few := returns.added_le large (.start low)
    rw [Nat.zero_add] at few
    refine ⟨added, few, fun ran result => ⟨fun others => others.unique returns, ?_⟩⟩
    rintro ⟨rfl, rfl⟩
    exact returns

/--
Over two members, the lengths up to 127 have as many strings as a double word can count; those
up to the last word are given up after 128 terms at most.
-/
theorem countStrings_exact_over_all_words :
    (0 ≤ 127 ∧ 127 < wordSize ∧ 0 ≤ wordSize - 1 ∧ wordSize - 1 < wordSize) ∧
      countStrings 2 0 127 = .ok (doubleWordSize - 1) ∧
        countStrings 2 0 (wordSize - 1) = .error .overflow ∧
          ∃ added ≤ 128, Returns 2 wordSize ⟨0, 0⟩ added (.error .overflow) := by
  have lengths : 0 ≤ 127 ∧ 127 < wordSize := by decide
  have words : 0 ≤ wordSize - 1 ∧ wordSize - 1 < wordSize := by decide
  have allOnes : ∑ length ∈ Finset.Icc 0 127, 2 ^ length = doubleWordSize - 1 := by decide +kernel
  have tooMany : doubleWordSize ≤ ∑ length ∈ Finset.Icc 0 (wordSize - 1), 2 ^ length := calc
    doubleWordSize = 2 ^ 128 := doubleWordSize_eq_two_pow
    _ ≤ ∑ length ∈ Finset.Icc 0 (wordSize - 1), 2 ^ length :=
      Finset.single_le_sum (fun _ _ => Nat.zero_le _) (Finset.mem_Icc.mpr (by decide))
  obtain ⟨exact, -, -⟩ := countStrings_exact_in_few_terms 2 lengths.1 lengths.2
  obtain ⟨-, overflows, few⟩ := countStrings_exact_in_few_terms 2 words.1 words.2
  rw [allOnes] at exact
  have refused := overflows tooMany
  obtain ⟨added, bound, returns⟩ := few (Nat.le_refl 2)
  exact ⟨⟨lengths.1, lengths.2, words⟩, exact (by decide), refused, added, bound,
    (returns added _).mpr ⟨rfl, refused.symm⟩⟩

end TextTemplate
