import Mathlib.Algebra.BigOperators.Ring.Finset
import Mathlib.Algebra.Order.BigOperators.Group.Finset
import Mathlib.Data.Finset.Card
import Mathlib.Order.Interval.Finset.Nat
import TextTemplate.Proofs.Random.Traces

/-!
# Counting traces

The traces of a recipe that asks for nothing but numbers are finitely many.  They are counted
along the recipe: one sum over the answers for each question.
-/

namespace TextTemplate

variable {α β : Type} {resolves : List Char → List Nat → List Char → Prop}

/-- A question for a number that has an answer. -/
def Question.IsNumeric : Question → Prop
  | .index bound => 0 < bound
  | .between low high => low ≤ high ∧ high < wordSize
  | .shuffle _ => False
  | .resolve _ => False

namespace Recipe

/-- The answers that lead through a recipe which asks for nothing but numbers. -/
def traces : Recipe α → Finset (List Nat)
  | .done _ => {[]}
  | .index bound next =>
      (Finset.range bound).biUnion fun answer => (next answer).traces.image (answer :: ·)
  | .between low high next =>
      (Finset.Icc low high).biUnion fun number =>
        (next number).traces.image (integerIndices low high number ++ ·)
  | .shuffle _ _ => ∅
  | .resolve _ _ => ∅

/-- The weights of the values at the ends of all traces, summed up. -/
def tally (weight : α → Nat) : Recipe α → Nat
  | .done value => weight value
  | .index bound next => ∑ answer ∈ Finset.range bound, (next answer).tally weight
  | .between low high next => ∑ number ∈ Finset.Icc low high, (next number).tally weight
  | .shuffle _ _ => 0
  | .resolve _ _ => 0

/-- How many traces a recipe has. -/
def traceCount (recipe : Recipe α) : Nat := recipe.tally fun _ => 1

theorem traceCount_index (bound : Nat) (next : Nat → Recipe α) :
    (Recipe.index bound next).traceCount =
      ∑ answer ∈ Finset.range bound, (next answer).traceCount :=
  rfl

theorem mem_traces_iff {recipe : Recipe α} (numeric : recipe.AsksOnly Question.IsNumeric)
    {answers : List Nat} :
    answers ∈ recipe.traces ↔ ∃ value, Trace resolves recipe answers value := by
  induction recipe generalizing answers with
  | done value =>
      rw [traces, Finset.mem_singleton]
      constructor
      · rintro rfl
        exact ⟨value, .done value⟩
      · rintro ⟨_, trace⟩
        cases trace
        rfl
  | index bound next ih =>
      simp only [traces, Finset.mem_biUnion, Finset.mem_range, Finset.mem_image,
        ih _ (numeric.2 _)]
      constructor
      · rintro ⟨answer, inBounds, rest, ⟨value, trace⟩, rfl⟩
        exact ⟨value, .index inBounds trace⟩
      · rintro ⟨value, trace⟩
        cases trace with
        | index inBounds rest => exact ⟨_, inBounds, _, ⟨value, rest⟩, rfl⟩
  | between low high next ih =>
      obtain ⟨ordered, fits⟩ := numeric.1
      simp only [traces, Finset.mem_biUnion, Finset.mem_Icc, Finset.mem_image,
        ih _ (numeric.2 _)]
      constructor
      · rintro ⟨number, between, rest, ⟨value, trace⟩, rfl⟩
        obtain ⟨within, same⟩ := (integerWith_scripted_eq_iff ordered fits).mpr ⟨between, rfl⟩
        rw [← same] at trace
        exact ⟨value, .between within trace⟩
      · rintro ⟨value, trace⟩
        cases trace with
        | between within rest =>
            obtain ⟨between, same⟩ :=
              (integerWith_scripted_eq_iff ordered fits).mp ⟨within, rfl⟩
            exact ⟨_, between, _, ⟨value, rest⟩, by rw [← same]⟩
  | shuffle characters next ih => exact absurd numeric.1 id
  | resolve name next ih => exact absurd numeric.1 id

theorem card_traces {recipe : Recipe α} (numeric : recipe.AsksOnly Question.IsNumeric) :
    recipe.traces.card = recipe.traceCount := by
  unfold traceCount
  induction recipe with
  | done value => rfl
  | index bound next ih =>
      rw [traces, tally, Finset.card_biUnion]
      · apply Finset.sum_congr rfl
        intro answer _
        rw [Finset.card_image_of_injective _ List.cons_injective, ih _ (numeric.2 _)]
      · intro answer _ other _ differ
        rw [Function.onFun, Finset.disjoint_left]
        intro trace inFirst inSecond
        obtain ⟨rest, _, rfl⟩ := Finset.mem_image.mp inFirst
        obtain ⟨otherRest, _, same⟩ := Finset.mem_image.mp inSecond
        exact differ (List.cons.inj same).1.symm
  | between low high next ih =>
      obtain ⟨ordered, fits⟩ := numeric.1
      rw [traces, tally, Finset.card_biUnion]
      · apply Finset.sum_congr rfl
        intro number _
        rw [Finset.card_image_of_injective _ (List.append_right_injective _),
          ih _ (numeric.2 _)]
      · intro number between other otherBetween differ
        rw [Function.onFun, Finset.disjoint_left]
        intro trace inFirst inSecond
        obtain ⟨rest, _, rfl⟩ := Finset.mem_image.mp inFirst
        obtain ⟨otherRest, _, same⟩ := Finset.mem_image.mp inSecond
        -- The indices of both integers have the same number of places.
        have indices : integerIndices low high other = integerIndices low high number :=
          List.append_inj_left same (by rw [length_integerIndices, length_integerIndices])
        have made := (integerWith_scripted_eq_iff ordered fits).mpr
          ⟨Finset.mem_Icc.mp between, rfl⟩
        have otherMade := (integerWith_scripted_eq_iff ordered fits).mpr
          ⟨Finset.mem_Icc.mp otherBetween, rfl⟩
        rw [indices] at otherMade
        exact differ (made.2.symm.trans otherMade.2)
  | shuffle characters next ih => exact absurd numeric.1 id
  | resolve name next ih => exact absurd numeric.1 id

/-! ## Tallies of composed recipes -/

theorem tally_bind (weight : β → Nat) (recipe : Recipe α) (following : α → Recipe β) :
    (recipe.bind following).tally weight =
      recipe.tally fun value => (following value).tally weight := by
  induction recipe with
  | done value => rfl
  | index bound next ih => exact Finset.sum_congr rfl fun answer _ => ih answer
  | between low high next ih => exact Finset.sum_congr rfl fun number _ => ih number
  | shuffle characters next ih => rfl
  | resolve name next ih => rfl

theorem tally_const (factor : Nat) (recipe : Recipe α) :
    (recipe.tally fun _ => factor) = (recipe.tally fun _ => 1) * factor := by
  induction recipe with
  | done value => exact (Nat.one_mul factor).symm
  | index bound next ih =>
      rw [tally, tally, Finset.sum_mul]
      apply Finset.sum_congr rfl
      intro answer _
      exact ih answer
  | between low high next ih =>
      rw [tally, tally, Finset.sum_mul]
      apply Finset.sum_congr rfl
      intro number _
      exact ih number
  | shuffle characters next ih => exact (Nat.zero_mul factor).symm
  | resolve name next ih => exact (Nat.zero_mul factor).symm

/-- After every value of the first recipe the next one has equally many traces. -/
theorem traceCount_bind {recipe : Recipe α} {following : α → Recipe β} {later : Nat}
    (constant : ∀ value, (following value).traceCount = later) :
    (recipe.bind following).traceCount = recipe.traceCount * later := by
  unfold traceCount at constant ⊢
  rw [tally_bind]
  simp only [constant]
  exact tally_const later recipe

/-- Some trace leads through every recipe whose questions have answers. -/
theorem traceCount_pos {recipe : Recipe α} (numeric : recipe.AsksOnly Question.IsNumeric) :
    0 < recipe.traceCount := by
  unfold traceCount
  induction recipe with
  | done value => exact Nat.zero_lt_one
  | index bound next ih =>
      apply Finset.sum_pos
      · intro answer _
        exact ih answer (numeric.2 answer)
      · exact ⟨0, Finset.mem_range.mpr numeric.1⟩
  | between low high next ih =>
      apply Finset.sum_pos
      · intro number _
        exact ih number (numeric.2 number)
      · exact ⟨low, Finset.mem_Icc.mpr ⟨Nat.le_refl low, numeric.1.1⟩⟩
  | shuffle characters next ih => exact absurd numeric.1 id
  | resolve name next ih => exact absurd numeric.1 id

end Recipe

end TextTemplate
