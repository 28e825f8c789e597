import TextTemplate.Random.Shuffle
import TextTemplate.Text.WordSize

/-!
# Providers of randomness

A provider answers three kinds of question from a state of its own: an index below a bound,
an integer between two bounds, and a rearrangement of characters.  The last two can be
answered with indices alone.
-/

namespace TextTemplate

/-- A source of random decisions whose state has the type `σ`. -/
structure Provider (σ : Type) where
  /-- The name under which the provider is reported. -/
  name : String
  /-- An index below a bound that is not zero. -/
  nextIndex : (bound : Nat) → σ → Nat × σ
  /-- An integer between two bounds, both included. -/
  integer : (low high : Nat) → σ → Nat × σ
  /-- A rearrangement of characters. -/
  rearrange : List Char → σ → List Char × σ

/--
An integer from `low` to `high`, from one index.  The range of all words has one value more
than a word can count; there the top bit and the rest are picked separately.
-/
def integerWith {σ : Type} (pick : Nat → σ → Nat × σ) (low high : Nat) (state : σ) : Nat × σ :=
  let size := high - low + 1
  if size < wordSize then
    let (offset, later) := pick size state
    (low + offset, later)
  else
    let half := wordSize / 2
    let (top, between) := pick 2 state
    let (rest, later) := pick half between
    (top * half + rest, later)

namespace Provider

variable {σ : Type}

/-- The name of a provider that gives none. -/
def defaultName : String := "custom"

/-- The provider that answers everything from one way to pick an index. -/
def ofIndex (pick : Nat → σ → Nat × σ) (name : String) : Provider σ where
  name := name
  nextIndex := pick
  integer := integerWith pick
  rearrange := shuffleWith pick

/-- One element of a list; an empty list gives none and asks nothing. -/
def choose? {α : Type} (provider : Provider σ) (items : List α) (state : σ) : Option α × σ :=
  if items.isEmpty then (none, state)
  else
    let (chosen, later) := provider.nextIndex items.length state
    (items[chosen]?, later)

end Provider

/-! ## Index pickers without chance -/

namespace Pick

/-- Always the first index. -/
def lowest (_ : Nat) (state : Unit) : Nat × Unit := (0, state)

/-- Always the last index. -/
def highest (bound : Nat) (state : Unit) : Nat × Unit := (bound - 1, state)

/-- Counts upwards through all words. -/
def cycle (bound : Nat) (state : Nat) : Nat × Nat :=
  (state % bound, (state + 1) % wordSize)

/-- Goes through listed values again and again; the state counts the answers given. -/
def listed (values : Array Nat) (bound : Nat) (state : Nat) : Nat × Nat :=
  (values.getD (state % values.size) 0 % bound, state + 1)

/-- The upper half of a linear congruential generator on words. -/
def congruential (bound : Nat) (state : UInt64) : Nat × UInt64 :=
  let later := state * 6364136223846793005 + 1442695040888963407
  ((later >>> 33).toNat % bound, later)

/-- Keeps the bounds asked for, latest first, beside the state of another picker. -/
def recorded {σ : Type} (pick : Nat → σ → Nat × σ) (bound : Nat) (state : σ × List Nat) :
    Nat × (σ × List Nat) :=
  let (answer, later) := pick bound state.1
  (answer, later, bound :: state.2)

end Pick

end TextTemplate
