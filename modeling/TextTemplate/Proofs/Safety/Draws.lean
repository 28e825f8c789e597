import TextTemplate.Proofs.Random.Reach
import TextTemplate.Random.Provider

/-!
# Draws that check every step

What a machine would break down at is checked here before it is done: a bound that leaves no
index, a place outside a list, arithmetic beyond the words.  As long as every index that is
picked lies below its bound, no check fails, and the values are those of the draws without
checks.
-/

namespace TextTemplate

/-- What stops a program that checks every step of its own. -/
inductive Breakdown where
  /-- An index was asked for where there is none. -/
  | noIndex
  /-- A place lies outside the list. -/
  | outside
  /-- A sum or product is too large. -/
  | overflow
  /-- A difference is below zero. -/
  | underflow
  /-- A division by zero. -/
  | zeroDivisor
deriving DecidableEq, Repr

/-- A value, or the breakdown on the way to it. -/
abbrev Guarded (α : Type) : Type := Except Breakdown α

namespace Guarded

variable {α β σ : Type}

@[simp]
theorem ok_bind (value : α) (next : α → Guarded β) : (Except.ok value >>= next) = next value :=
  rfl

/-! ## Steps -/

/-- A sum that has to stay below a limit. -/
def add (limit first second : Nat) : Guarded Nat :=
  if first + second < limit then .ok (first + second) else .error .overflow

/-- A product that has to stay below a limit. -/
def mul (limit first second : Nat) : Guarded Nat :=
  if first * second < limit then .ok (first * second) else .error .overflow

/-- A difference that must not fall below zero. -/
def sub (first second : Nat) : Guarded Nat :=
  if second ≤ first then .ok (first - second) else .error .underflow

def div (first second : Nat) : Guarded Nat :=
  if second = 0 then .error .zeroDivisor else .ok (first / second)

/-- The item at a place, which has to lie inside the list. -/
def item (items : Array α) (place : Nat) : Guarded α :=
  if inside : place < items.size then .ok items[place] else .error .outside

/-- Swaps the items at two places, which have to lie inside the list. -/
def swap (items : Array α) (first second : Nat) : Guarded (Array α) :=
  if first < items.size ∧ second < items.size then .ok (items.swapIfInBounds first second)
  else .error .outside

/-- The place behind a place of a list; no list ends behind the largest word. -/
def behind (items : Array α) (place : Nat) : Guarded Nat :=
  if place < items.size then .ok (place + 1) else .error .overflow

section Steps

variable {limit first second place : Nat} {items : Array α}

theorem add_eq_ok (fits : first + second < limit) : add limit first second = .ok (first + second) :=
  if_pos fits

theorem mul_eq_ok (fits : first * second < limit) : mul limit first second = .ok (first * second) :=
  if_pos fits

theorem sub_eq_ok (least : second ≤ first) : sub first second = .ok (first - second) :=
  if_pos least

theorem div_eq_ok (positive : 0 < second) : div first second = .ok (first / second) :=
  if_neg (Nat.ne_of_gt positive)

theorem item_eq_ok (inside : place < items.size) : item items place = .ok items[place] :=
  dif_pos inside

theorem swap_eq_ok (inside : first < items.size) (insideToo : second < items.size) :
    swap items first second = .ok (items.swapIfInBounds first second) :=
  if_pos ⟨inside, insideToo⟩

theorem behind_eq_ok (inside : place < items.size) : behind items place = .ok (place + 1) :=
  if_pos inside

end Steps

/-! ## Indices, integers and rearrangements -/

variable (pick : Nat → σ → Nat × σ)

/-- An index below a bound, which must leave one. -/
def index (bound : Nat) (state : σ) : Guarded (Nat × σ) :=
  if bound = 0 then .error .noIndex else .ok (pick bound state)

/-- An integer from one index, or from two where the size of the range is no word. -/
def integer (low high : Nat) (state : σ) : Guarded (Nat × σ) := do
  let range ← sub high low
  if range + 1 < wordSize then
    let (offset, later) ← index pick (range + 1) state
    let answer ← add wordSize low offset
    return (answer, later)
  else
    let half := wordSize / 2
    let (top, between) ← index pick 2 state
    let upper ← mul wordSize top half
    let (rest, later) ← index pick half between
    let answer ← add wordSize upper rest
    return (answer, later)

/-- Settles the positions from `last` down to the second one. -/
def settle : Nat → Array Char → σ → Guarded (Array Char × σ)
  | 0, characters, state => return (characters, state)
  | last + 1, characters, state => do
      let bound ← behind characters (last + 1)
      let (chosen, later) ← index pick bound state
      let swapped ← swap characters (last + 1) chosen
      settle last swapped later

/-- Shuffles characters. -/
def rearrange (characters : List Char) (state : σ) : Guarded (List Char × σ) := do
  let (settled, later) ← settle pick (characters.length - 1) characters.toArray state
  return (settled.toList, later)

section Draws

variable {pick} {bound low high : Nat}

theorem index_eq_ok (positive : 0 < bound) (state : σ) :
    index pick bound state = .ok (pick bound state) :=
  if_neg (Nat.ne_of_gt positive)

/-- The top bit and the rest make a word. -/
theorem halves_lt_wordSize {top rest : Nat} (bit : top < 2) (lower : rest < wordSize / 2) :
    top * (wordSize / 2) + rest < wordSize := by
  have twice : wordSize / 2 + wordSize / 2 = wordSize := by simp [wordSize]
  have upper : top * (wordSize / 2) ≤ wordSize / 2 := by
    simpa using Nat.mul_le_mul_right (wordSize / 2) (Nat.le_of_lt_succ bit)
  omega

theorem integerWith_lt_wordSize (below : Pick.StaysBelow pick) (inOrder : low ≤ high)
    (word : high < wordSize) (state : σ) : (integerWith pick low high state).1 < wordSize :=
  Nat.lt_of_le_of_lt (integerWith_between below inOrder word state).2 word

theorem integer_eq_ok (below : Pick.StaysBelow pick) (inOrder : low ≤ high) (word : high < wordSize)
    (state : σ) : integer pick low high state = .ok (integerWith pick low high state) := by
  rw [integer, sub_eq_ok inOrder, ok_bind, integerWith]
  split
  · have offsetBelow := below (high - low + 1) state (Nat.succ_pos _)
    rw [index_eq_ok (Nat.succ_pos _), ok_bind]
    rcases drawn : pick (high - low + 1) state with ⟨offset, later⟩
    rw [drawn] at offsetBelow
    simp only [add_eq_ok (by omega : low + offset < wordSize), ok_bind]
    rfl
  · have topBelow := below 2 state (by decide)
    have positive : 0 < wordSize / 2 := by simp [wordSize]
    rw [index_eq_ok (by decide), ok_bind]
    rcases drawn : pick 2 state with ⟨top, between⟩
    rw [drawn] at topBelow
    have restBelow := below (wordSize / 2) between positive
    have fits := halves_lt_wordSize topBelow restBelow
    dsimp only
    rw [mul_eq_ok (Nat.lt_of_le_of_lt (Nat.le_add_right _ _) fits), ok_bind,
      index_eq_ok positive, ok_bind]
    rcases drawnRest : pick (wordSize / 2) between with ⟨rest, later⟩
    rw [drawnRest] at fits
    dsimp only
    rw [add_eq_ok fits, ok_bind]
    rfl

/-- A shuffle stays inside the list, since no index is picked behind the place to settle. -/
theorem settle_eq_ok (below : Pick.StaysBelow pick) {last : Nat} {characters : Array Char}
    (inside : last = 0 ∨ last < characters.size) (state : σ) :
    settle pick last characters state = .ok (Shuffle.settle pick last characters state) := by
  induction last generalizing characters state with
  | zero => rfl
  | succ last ih =>
      have place : last + 1 < characters.size := by omega
      have chosenBelow := below (last + 2) state (Nat.succ_pos _)
      rw [settle, Shuffle.settle, behind_eq_ok place, ok_bind, index_eq_ok (Nat.succ_pos _),
        ok_bind]
      rcases drawn : pick (last + 2) state with ⟨chosen, later⟩
      rw [drawn] at chosenBelow
      simp only [swap_eq_ok place (by omega : chosen < characters.size), ok_bind]
      exact ih (by rw [Array.size_swapIfInBounds]; omega) later

theorem rearrange_eq_ok (below : Pick.StaysBelow pick) (characters : List Char) (state : σ) :
    rearrange pick characters state = .ok (shuffleWith pick characters state) := by
  have inside : characters.length - 1 = 0 ∨ characters.length - 1 < characters.toArray.size := by
    rw [List.size_toArray]
    omega
  rw [rearrange, settle_eq_ok below inside]
  rfl

end Draws

end Guarded

end TextTemplate
