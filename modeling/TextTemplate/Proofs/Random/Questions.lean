import TextTemplate.Random.Recipe
import TextTemplate.Text.WordSize

/-!
# What a recipe asks

A condition on every question of a recipe, whatever the answers before it were.
-/

namespace TextTemplate

/-- A question of a recipe. -/
inductive Question where
  | index (bound : Nat)
  | between (low high : Nat)
  | shuffle (characters : List Char)
  | resolve (name : List Char)
deriving DecidableEq

/-- There is an answer: some index lies below the bound, some word between the bounds. -/
def Question.IsAnswerable : Question → Prop
  | .index bound => 0 < bound
  | .between low high => low ≤ high ∧ high < wordSize
  | .shuffle _ => True
  | .resolve _ => True

/-- A question that does not ask for a name. -/
def Question.IsDraw (question : Question) : Prop := ∀ name, question ≠ .resolve name

namespace Recipe

variable {α β : Type}

/-- Every question of a recipe is an allowed one, after all answers. -/
def AsksOnly (allowed : Question → Prop) : Recipe α → Prop
  | .done _ => True
  | .index bound next => allowed (.index bound) ∧ ∀ answer, (next answer).AsksOnly allowed
  | .between low high next =>
      allowed (.between low high) ∧ ∀ answer, (next answer).AsksOnly allowed
  | .shuffle characters next =>
      allowed (.shuffle characters) ∧ ∀ answer, (next answer).AsksOnly allowed
  | .resolve name next => allowed (.resolve name) ∧ ∀ answer, (next answer).AsksOnly allowed

variable {allowed : Question → Prop}

theorem AsksOnly.bind {recipe : Recipe α} {following : α → Recipe β}
    (asks : recipe.AsksOnly allowed) (asksLater : ∀ value, (following value).AsksOnly allowed) :
    (recipe.bind following).AsksOnly allowed := by
  induction recipe with
  | done value => exact asksLater value
  | index bound next ih => exact ⟨asks.1, fun answer => ih answer (asks.2 answer)⟩
  | between low high next ih => exact ⟨asks.1, fun answer => ih answer (asks.2 answer)⟩
  | shuffle characters next ih => exact ⟨asks.1, fun answer => ih answer (asks.2 answer)⟩
  | resolve name next ih => exact ⟨asks.1, fun answer => ih answer (asks.2 answer)⟩

theorem AsksOnly.imp {weaker : Question → Prop} {recipe : Recipe α}
    (weakens : ∀ question, allowed question → weaker question)
    (asks : recipe.AsksOnly allowed) : recipe.AsksOnly weaker := by
  induction recipe with
  | done value => trivial
  | index bound next ih => exact ⟨weakens _ asks.1, fun answer => ih answer (asks.2 answer)⟩
  | between low high next ih =>
      exact ⟨weakens _ asks.1, fun answer => ih answer (asks.2 answer)⟩
  | shuffle characters next ih =>
      exact ⟨weakens _ asks.1, fun answer => ih answer (asks.2 answer)⟩
  | resolve name next ih => exact ⟨weakens _ asks.1, fun answer => ih answer (asks.2 answer)⟩

end Recipe

end TextTemplate
