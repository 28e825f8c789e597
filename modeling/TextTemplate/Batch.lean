import Std.Data.HashSet
import TextTemplate.Text.WordSize

/-!
# Batches

A batch takes items from a stream, which is given by a state and the step that makes the next
item.  A plain batch takes as many as asked for; a distinct one passes over repeated items.
Memory is taken as unlimited: no request is refused because there is no room for its items.
-/

namespace TextTemplate

/-- A report after an accepted item: how many there are, out of how many. -/
structure Progress where
  accepted : Nat
  requested : Nat
deriving DecidableEq, Repr

/-- The failure of a distinct batch. -/
structure UniquenessError where
  requested : Nat
  produced : Nat
  attempts : Nat
deriving DecidableEq, Repr

/-- What a batch leaves behind: the accepted items, its reports, the attempts and the state. -/
structure Batch (σ α : Type) where
  items : List α
  progress : List Progress
  attempts : Nat
  state : σ

namespace Batch

variable {σ α : Type}

/-- A batch that has not begun. -/
def start (state : σ) : Batch σ α := ⟨[], [], 0, state⟩

/-- Counts an attempt without accepting its item. -/
def reject (batch : Batch σ α) (state : σ) : Batch σ α :=
  { batch with attempts := batch.attempts + 1, state := state }

/--
Accepts the item of an attempt and reports it, with so many items missing afterwards.  Lists
stand latest first meanwhile.
-/
def accept (batch : Batch σ α) (requested missing : Nat) (item : α) (state : σ) : Batch σ α :=
  ⟨item :: batch.items, ⟨requested - missing, requested⟩ :: batch.progress,
    batch.attempts + 1, state⟩

/-- A finished batch, its lists in order. -/
def finish (batch : Batch σ α) : Batch σ α :=
  { batch with items := batch.items.reverse, progress := batch.progress.reverse }

/-- Takes `missing` more items. -/
def takeMore (next : σ → α × σ) (requested : Nat) : (missing : Nat) → Batch σ α → Batch σ α
  | 0, batch => batch
  | missing + 1, batch =>
      let (item, state) := next batch.state
      takeMore next requested missing (batch.accept requested missing item state)

/-- A batch of any items. -/
def take (next : σ → α × σ) (requested : Nat) (state : σ) : Batch σ α :=
  (takeMore next requested requested (start state)).finish

section Distinct

variable [BEq α] [Hashable α]

/-- Takes `missing` more new items, or stops when no attempt is left. -/
def takeDistinct (next : σ → α × σ) (requested : Nat) :
    (attemptsLeft missing : Nat) → (seen : Std.HashSet α) → Batch σ α → Batch σ α
  | _, 0, _, batch => batch
  | 0, _, _, batch => batch
  | attemptsLeft + 1, missing + 1, seen, batch =>
      let (item, state) := next batch.state
      if seen.contains item then
        takeDistinct next requested attemptsLeft (missing + 1) seen (batch.reject state)
      else
        takeDistinct next requested attemptsLeft missing (seen.insert item)
          (batch.accept requested missing item state)

/-- A batch of distinct items, with a limit on the attempts.  It may come out short. -/
def distinct (next : σ → α × σ) (requested maxAttempts : Nat) (state : σ) : Batch σ α :=
  (takeDistinct next requested maxAttempts requested ∅ (start state)).finish

/--
Takes items into a set until it has the requested size.  A stream may never yield so many
items, so the search is given up after `patience` items.
-/
def gather (next : σ → α × σ) (requested : Nat) :
    (patience : Nat) → Std.HashSet α → σ → Option (Std.HashSet α × σ)
  | 0, gathered, state => if requested ≤ gathered.size then some (gathered, state) else none
  | patience + 1, gathered, state =>
      if requested ≤ gathered.size then some (gathered, state)
      else
        let (item, later) := next state
        gather next requested patience (gathered.insert item) later

end Distinct

/-- How many attempts a distinct batch may make: a multiple of its size, held to one word. -/
def budget (requested factor : Nat) : Nat :=
  min (requested * factor) (wordSize - 1)

end Batch

end TextTemplate
