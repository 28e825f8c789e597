/-!
# Recipes

A recipe says how a value comes about: what is asked of the randomness and of the bindings,
in which order, and what each answer leads to.  It holds no state and makes no choice of its
own, so everything that can happen when it is followed can be read off it.
-/

namespace TextTemplate

/-- A value, or a question and the recipe that each answer leads to. -/
inductive Recipe (α : Type) where
  /-- Nothing more is asked. -/
  | done (value : α)
  /-- Asks for an index below `bound`. -/
  | index (bound : Nat) (next : Nat → Recipe α)
  /-- Asks for an integer from `low` to `high`. -/
  | between (low high : Nat) (next : Nat → Recipe α)
  /-- Asks for a rearrangement of some characters. -/
  | shuffle (characters : List Char) (next : List Char → Recipe α)
  /-- Asks for the text that a name is bound to. -/
  | resolve (name : List Char) (next : List Char → Recipe α)

namespace Recipe

variable {α β : Type}

/-- Goes on with another recipe once the value is there. -/
def bind : Recipe α → (α → Recipe β) → Recipe β
  | .done value, following => following value
  | .index bound next, following => .index bound fun answer => (next answer).bind following
  | .between low high next, following =>
      .between low high fun answer => (next answer).bind following
  | .shuffle characters next, following =>
      .shuffle characters fun answer => (next answer).bind following
  | .resolve name next, following => .resolve name fun answer => (next answer).bind following

end Recipe

end TextTemplate
