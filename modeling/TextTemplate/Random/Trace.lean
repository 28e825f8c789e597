import TextTemplate.Random.Provider
import TextTemplate.Random.Recipe

/-!
# Traces

A trace is a list of answers that leads through a recipe from its first question to its
value, when every question is answered by indices alone.  Each index lies below the bound
that was asked for.
-/

namespace TextTemplate

/-- The bounds of the indices that make an integer between two bounds. -/
def integerBounds (low high : Nat) : List Nat :=
  if high - low + 1 < wordSize then [high - low + 1] else [2, wordSize / 2]

/-- The bounds of the indices that rearrange so many characters. -/
def shuffleBounds : Nat → List Nat
  | 0 => []
  | 1 => []
  | length + 2 => (length + 2) :: shuffleBounds (length + 1)

/-- Answers that stay below bounds, one for each. -/
def WithinBounds : (bounds answers : List Nat) → Prop
  | [], [] => True
  | bound :: bounds, answer :: answers => answer < bound ∧ WithinBounds bounds answers
  | _, _ => False

/-- Answers from a list, one after the other. -/
def Pick.scripted (_ : Nat) : List Nat → Nat × List Nat
  | [] => (0, [])
  | answer :: rest => (answer, rest)

/--
Answers that lead through a recipe to a value.  What a name resolves to, and by which indices,
is left open.
-/
inductive Trace {α : Type} (resolves : List Char → List Nat → List Char → Prop) :
    Recipe α → List Nat → α → Prop where
  | done (value : α) : Trace resolves (.done value) [] value
  | index {bound answer : Nat} {answers : List Nat} {next : Nat → Recipe α} {value : α}
      (inBounds : answer < bound) (rest : Trace resolves (next answer) answers value) :
      Trace resolves (.index bound next) (answer :: answers) value
  | between {low high : Nat} {indices answers : List Nat} {next : Nat → Recipe α} {value : α}
      (inBounds : WithinBounds (integerBounds low high) indices)
      (rest : Trace resolves (next (integerWith Pick.scripted low high indices).1)
        answers value) :
      Trace resolves (.between low high next) (indices ++ answers) value
  | shuffle {characters : List Char} {indices answers : List Nat}
      {next : List Char → Recipe α} {value : α}
      (inBounds : WithinBounds (shuffleBounds characters.length) indices)
      (rest : Trace resolves (next (shuffleWith Pick.scripted characters indices).1)
        answers value) :
      Trace resolves (.shuffle characters next) (indices ++ answers) value
  | resolve {name text : List Char} {indices answers : List Nat}
      {next : List Char → Recipe α} {value : α} (resolved : resolves name indices text)
      (rest : Trace resolves (next text) answers value) :
      Trace resolves (.resolve name next) (indices ++ answers) value

end TextTemplate
