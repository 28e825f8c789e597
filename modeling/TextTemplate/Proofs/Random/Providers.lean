import TextTemplate.Proofs.Random.Traces
import TextTemplate.Render.Session

/-!
# Providers that answer within bounds

What a recipe leads to does not depend on how a provider makes its integers and its
rearrangements, as long as every answer is one that the question allows.
-/

namespace TextTemplate

variable {σ α : Type}

namespace Provider

/-- Every answer is one that its question allows. -/
structure AnswersWithin (provider : Provider σ) : Prop where
  index : Pick.StaysBelow provider.nextIndex
  integer : ∀ low high state, low ≤ high → high < wordSize →
    low ≤ (provider.integer low high state).1 ∧ (provider.integer low high state).1 ≤ high
  rearrange : ∀ characters state, (provider.rearrange characters state).1.Perm characters

/-- Integers made from indices need no condition of their own. -/
theorem answersWithin_of_integerWith {provider : Provider σ}
    (below : Pick.StaysBelow provider.nextIndex)
    (made : provider.integer = integerWith provider.nextIndex)
    (rearranges : ∀ characters state,
      (provider.rearrange characters state).1.Perm characters) :
    provider.AnswersWithin where
  index := below
  integer low high state ordered fits := by
    rw [made]
    exact integerWith_between below ordered fits state
  rearrange := rearranges

end Provider

/-- A recipe that asks for no name is led to one of its values. -/
theorem Session.yields_follow_of_answersWithin {provider : Provider σ}
    (within : provider.AnswersWithin) {recipe : Recipe α}
    {resolves : List Char → List Nat → List Char → Prop}
    (answerable : recipe.AsksOnly Question.IsAnswerable)
    (draws : recipe.AsksOnly Question.IsDraw) (session : Session σ) :
    recipe.Yields resolves (session.follow provider recipe).1 := by
  induction recipe generalizing session with
  | done value => exact Recipe.yields_done.mpr rfl
  | index bound next ih =>
      refine Recipe.yields_index.mpr ⟨_, within.index bound session.randomness answerable.1, ?_⟩
      exact ih _ (answerable.2 _) (draws.2 _) _
  | between low high next ih =>
      obtain ⟨ordered, fits⟩ := answerable.1
      have between := within.integer low high session.randomness ordered fits
      refine (Recipe.yields_between ordered fits).mpr ⟨_, between, ?_⟩
      exact ih _ (answerable.2 _) (draws.2 _) _
  | shuffle characters next ih =>
      refine Recipe.yields_shuffle.mpr ⟨_, within.rearrange characters session.randomness, ?_⟩
      exact ih _ (answerable.2 _) (draws.2 _) _
  | resolve name next ih => exact absurd rfl (draws.1 name)

end TextTemplate
