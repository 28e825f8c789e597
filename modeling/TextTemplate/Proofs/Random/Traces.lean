import TextTemplate.Proofs.Random.Questions
import TextTemplate.Proofs.Random.Reach

/-!
# Traces of recipes

The values of a recipe follow its questions: a value of a recipe and the next is one of the
next after one of the first, and an answer may be any that the question allows.
-/

namespace TextTemplate

variable {α β : Type} {resolves : List Char → List Nat → List Char → Prop}

namespace Trace

theorem bind {recipe : Recipe α} {following : α → Recipe β} {answers later : List Nat}
    {middle : α} {value : β} (first : Trace resolves recipe answers middle)
    (second : Trace resolves (following middle) later value) :
    Trace resolves (recipe.bind following) (answers ++ later) value := by
  induction first with
  | done middle => exact second
  | index inBounds rest ih => exact .index inBounds (ih second)
  | between inBounds rest ih =>
      rw [List.append_assoc]
      exact .between inBounds (ih second)
  | shuffle inBounds rest ih =>
      rw [List.append_assoc]
      exact .shuffle inBounds (ih second)
  | resolve resolved rest ih =>
      rw [List.append_assoc]
      exact .resolve resolved (ih second)

/-- A trace of a recipe and the next parts into a trace of each. -/
theorem exists_of_bind {recipe : Recipe α} {following : α → Recipe β} {answers : List Nat}
    {value : β} (trace : Trace resolves (recipe.bind following) answers value) :
    ∃ first later middle, answers = first ++ later ∧ Trace resolves recipe first middle ∧
      Trace resolves (following middle) later value := by
  induction recipe generalizing answers with
  | done middle => exact ⟨[], answers, middle, rfl, .done middle, trace⟩
  | index bound next ih =>
      cases trace with
      | index inBounds rest =>
          obtain ⟨first, later, middle, rfl, before, behind⟩ := ih _ rest
          exact ⟨_ :: first, later, middle, rfl, .index inBounds before, behind⟩
  | between low high next ih =>
      cases trace with
      | between inBounds rest =>
          obtain ⟨first, later, middle, rfl, before, behind⟩ := ih _ rest
          exact ⟨_ ++ first, later, middle, (List.append_assoc ..).symm,
            .between inBounds before, behind⟩
  | shuffle characters next ih =>
      cases trace with
      | shuffle inBounds rest =>
          obtain ⟨first, later, middle, rfl, before, behind⟩ := ih _ rest
          exact ⟨_ ++ first, later, middle, (List.append_assoc ..).symm,
            .shuffle inBounds before, behind⟩
  | resolve name next ih =>
      cases trace with
      | resolve resolved rest =>
          obtain ⟨first, later, middle, rfl, before, behind⟩ := ih _ rest
          exact ⟨_ ++ first, later, middle, (List.append_assoc ..).symm,
            .resolve resolved before, behind⟩

end Trace

namespace Recipe

/-- A value that some answers lead a recipe to. -/
def Yields (resolves : List Char → List Nat → List Char → Prop) (recipe : Recipe α)
    (value : α) : Prop :=
  ∃ answers, Trace resolves recipe answers value

@[simp]
theorem yields_done {given value : α} :
    (Recipe.done given).Yields resolves value ↔ value = given := by
  constructor
  · rintro ⟨answers, trace⟩
    cases trace
    rfl
  · rintro rfl
    exact ⟨[], .done value⟩

theorem yields_bind {recipe : Recipe α} {following : α → Recipe β} {value : β} :
    (recipe.bind following).Yields resolves value ↔
      ∃ middle, recipe.Yields resolves middle ∧ (following middle).Yields resolves value := by
  constructor
  · rintro ⟨answers, trace⟩
    obtain ⟨first, later, middle, same, before, behind⟩ := trace.exists_of_bind
    exact ⟨middle, ⟨first, before⟩, ⟨later, behind⟩⟩
  · rintro ⟨middle, ⟨first, before⟩, ⟨later, behind⟩⟩
    exact ⟨first ++ later, before.bind behind⟩

theorem yields_index {bound : Nat} {next : Nat → Recipe α} {value : α} :
    (Recipe.index bound next).Yields resolves value ↔
      ∃ answer, answer < bound ∧ (next answer).Yields resolves value := by
  constructor
  · rintro ⟨answers, trace⟩
    cases trace with
    | index inBounds rest => exact ⟨_, inBounds, _, rest⟩
  · rintro ⟨answer, inBounds, answers, rest⟩
    exact ⟨answer :: answers, .index inBounds rest⟩

theorem yields_between {low high : Nat} {next : Nat → Recipe α} {value : α}
    (ordered : low ≤ high) (fits : high < wordSize) :
    (Recipe.between low high next).Yields resolves value ↔
      ∃ number, (low ≤ number ∧ number ≤ high) ∧ (next number).Yields resolves value := by
  constructor
  · rintro ⟨answers, trace⟩
    cases trace with
    | between inBounds rest =>
        obtain ⟨between, -⟩ := (integerWith_scripted_eq_iff ordered fits).mp ⟨inBounds, rfl⟩
        exact ⟨_, between, _, rest⟩
  · rintro ⟨number, between, answers, rest⟩
    obtain ⟨inBounds, same⟩ := (integerWith_scripted_eq_iff ordered fits).mpr ⟨between, rfl⟩
    rw [← same] at rest
    exact ⟨_, .between inBounds rest⟩

theorem yields_shuffle {characters : List Char} {next : List Char → Recipe α} {value : α} :
    (Recipe.shuffle characters next).Yields resolves value ↔
      ∃ arranged, arranged.Perm characters ∧ (next arranged).Yields resolves value := by
  constructor
  · rintro ⟨answers, trace⟩
    cases trace with
    | shuffle inBounds rest =>
        exact ⟨_, exists_shuffleWith_scripted_iff.mp ⟨_, inBounds, rfl⟩, _, rest⟩
  · rintro ⟨arranged, rearranges, answers, rest⟩
    obtain ⟨indices, inBounds, rfl⟩ := exists_shuffleWith_scripted_iff.mpr rearranges
    exact ⟨_, .shuffle inBounds rest⟩

theorem yields_resolve {name : List Char} {next : List Char → Recipe α} {value : α} :
    (Recipe.resolve name next).Yields resolves value ↔
      ∃ text, (∃ indices, resolves name indices text) ∧ (next text).Yields resolves value := by
  constructor
  · rintro ⟨answers, trace⟩
    cases trace with
    | resolve resolved rest => exact ⟨_, ⟨_, resolved⟩, _, rest⟩
  · rintro ⟨text, ⟨indices, resolved⟩, answers, rest⟩
    exact ⟨indices ++ answers, .resolve resolved rest⟩

end Recipe

end TextTemplate
