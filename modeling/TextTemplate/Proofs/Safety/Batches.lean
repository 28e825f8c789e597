import TextTemplate.Generator
import TextTemplate.Proofs.Safety.Counts
import TextTemplate.Proofs.Tree.Parsed

/-!
# Generators that check every step

Batches take their texts one by one and count their attempts in a word.  With them all that a
generator does with its tree has a form in which every step is checked, and for ordered trees
and a provider that stays below its bounds no check ever fails.
-/

namespace TextTemplate

namespace Guarded

/-! ## Batches -/

section Batches

variable {σ α : Type} (step : σ → Guarded (α × σ)) (requested : Nat)

/-- Takes `missing` more items. -/
def takeMore : (missing : Nat) → Batch σ α → Guarded (Batch σ α)
  | 0, batch => return batch
  | missing + 1, batch => do
      let (item, state) ← step batch.state
      takeMore missing (batch.accept requested missing item state)

/-- A batch of any items. -/
def take (state : σ) : Guarded (Batch σ α) := do
  let batch ← takeMore step requested requested (.start state)
  return batch.finish

variable [BEq α] [Hashable α]

/-- Takes `missing` more new items, or stops when no attempt is left. -/
def takeDistinct : (attemptsLeft missing : Nat) → (seen : Std.HashSet α) → Batch σ α →
    Guarded (Batch σ α)
  | _, 0, _, batch => return batch
  | 0, _, _, batch => return batch
  | attemptsLeft + 1, missing + 1, seen, batch => do
      let attempts ← add wordSize batch.attempts 1
      let (item, state) ← step batch.state
      if seen.contains item then
        takeDistinct attemptsLeft (missing + 1) seen
          { batch.reject state with attempts := attempts }
      else
        takeDistinct attemptsLeft missing (seen.insert item)
          { batch.accept requested missing item state with attempts := attempts }

/-- A batch of distinct items, with a limit on the attempts. -/
def distinct (maxAttempts : Nat) (state : σ) : Guarded (Batch σ α) := do
  let batch ← takeDistinct step requested maxAttempts requested ∅ (.start state)
  return batch.finish

/-- Takes items into a set until it has the requested size. -/
def gather : (patience : Nat) → Std.HashSet α → σ → Guarded (Option (Std.HashSet α × σ))
  | 0, gathered, state =>
      return if requested ≤ gathered.size then some (gathered, state) else none
  | patience + 1, gathered, state =>
      if requested ≤ gathered.size then return some (gathered, state)
      else do
        let (item, later) ← step state
        gather patience (gathered.insert item) later

end Batches

section Made

variable {σ α : Type} {step : σ → Guarded (α × σ)} {next : σ → α × σ} {requested : Nat}
  (makes : ∀ state, step state = .ok (next state))

include makes

theorem takeMore_eq_ok (missing : Nat) (batch : Batch σ α) :
    takeMore step requested missing batch = .ok (batch.takeMore next requested missing) := by
  induction missing generalizing batch with
  | zero => rfl
  | succ missing ih =>
      rw [takeMore, makes, ok_bind]
      exact ih _

theorem take_eq_ok (state : σ) :
    take step requested state = .ok (Batch.take next requested state) := by
  rw [take, takeMore_eq_ok makes, ok_bind]
  rfl

variable [BEq α] [Hashable α]

theorem takeDistinct_eq_ok (attemptsLeft missing : Nat) (seen : Std.HashSet α) (batch : Batch σ α)
    (room : batch.attempts + attemptsLeft < wordSize) :
    takeDistinct step requested attemptsLeft missing seen batch =
      .ok (Batch.takeDistinct next requested attemptsLeft missing seen batch) := by
  induction attemptsLeft generalizing missing seen batch with
  | zero => cases missing <;> rfl
  | succ attemptsLeft ih =>
      cases missing with
      | zero => rfl
      | succ missing =>
          have roomLater : batch.attempts + 1 + attemptsLeft < wordSize := by omega
          rw [takeDistinct, Batch.takeDistinct, add_eq_ok (by omega), ok_bind, makes, ok_bind]
          dsimp only
          split
          · exact ih (missing + 1) seen (batch.reject _) roomLater
          · exact ih missing (seen.insert _) (batch.accept requested missing _ _) roomLater

theorem distinct_eq_ok {maxAttempts : Nat} (room : maxAttempts < wordSize) (state : σ) :
    distinct step requested maxAttempts state =
      .ok (Batch.distinct next requested maxAttempts state) := by
  have started : (Batch.start state : Batch σ α).attempts + maxAttempts < wordSize := by
    rwa [Batch.start, Nat.zero_add]
  rw [distinct, takeDistinct_eq_ok makes _ _ _ _ started, ok_bind]
  rfl

theorem gather_eq_ok (patience : Nat) (gathered : Std.HashSet α) (state : σ) :
    gather step requested patience gathered state =
      .ok (Batch.gather next requested patience gathered state) := by
  induction patience generalizing gathered state with
  | zero => rfl
  | succ patience ih =>
      rw [gather, Batch.gather]
      split
      · rfl
      · rw [makes, ok_bind]
        exact ih _ _

end Made

/-! ## Generators -/

section Generators

variable {σ : Type} (pick : Nat → σ → Nat × σ) (generator : Generator σ)

/-- Some texts, repeated ones among them. -/
def renderList (requested : Nat) (session : Session σ) : Guarded (TextBatch σ) := do
  let batch ← take (render pick generator.tree) requested session
  return ⟨.ok batch.items, batch.progress, batch.state⟩

/-- Some distinct texts, in the order in which they first came up. -/
def renderDistinct (requested : Nat) (session : Session σ) : Guarded (TextBatch σ) := do
  let maxAttempts := Batch.budget requested generator.config.attemptsFactor
  let batch ← distinct (render pick generator.tree) requested maxAttempts session
  let produced := batch.items.length
  if produced < requested then
    return ⟨.error ⟨requested, produced, batch.attempts⟩, batch.progress,
      batch.state.note (.budgetExhausted produced requested batch.attempts)⟩
  else
    return ⟨.ok batch.items, batch.progress,
      batch.state.note (.uniqueBatch requested batch.attempts)⟩

/-- A set of texts of the requested size, sorted; nothing when the patience is at an end. -/
def renderSet? (patience requested : Nat) (session : Session σ) :
    Guarded (Option (List (List Char) × Session σ)) := do
  let gathered ← gather (render pick generator.tree) requested patience ∅ session
  return gathered.map fun (texts, later) => (texts.toList.mergeSort textLE, later)

end Generators

end Guarded

theorem Node.isOrdered_of_parse {limits : Limits} {pattern : List Char} {tree : Node}
    (read : parse limits pattern = .ok tree) : tree.IsOrdered :=
  (every_isProper_of_parse read).imp fun _ proper => proper.repeatsInOrder

theorem Batch.budget_lt_wordSize (requested factor : Nat) : budget requested factor < wordSize :=
  Nat.lt_of_le_of_lt (Nat.min_le_right _ _) (by simp [wordSize])

/--
No step of a rendering, a count or a batch breaks down, and all of them give what they give
without checks, for an ordered tree, in particular for every tree that is read from a pattern.
-/
theorem Generator.runs_without_breakdown {σ : Type} {pick : Nat → σ → Nat × σ}
    (below : Pick.StaysBelow pick) {name : String} {generator : Generator σ}
    (draws : generator.provider = .ofIndex pick name)
    (ordered : generator.tree.IsOrdered ∨
      ∃ limits pattern, parse limits pattern = .ok generator.tree)
    (storable : generator.tree.IsStorable) (session : Session σ) :
    Guarded.render pick generator.tree session = .ok (generator.render session) ∧
      Guarded.count pick generator.tree session = .ok (generator.count session) ∧
      (∀ requested, Guarded.renderList pick generator requested session =
        .ok (generator.renderList requested session)) ∧
      (∀ requested, Guarded.renderDistinct pick generator requested session =
        .ok (generator.renderDistinct requested session)) ∧
      ∀ patience requested, Guarded.renderSet? pick generator patience requested session =
        .ok (generator.renderSet? patience requested session) := by
  have inOrder : generator.tree.IsOrdered := by
    rcases ordered with inOrder | ⟨limits, pattern, read⟩
    · exact inOrder
    · exact Node.isOrdered_of_parse read
  have makes : ∀ session, Guarded.render pick generator.tree session =
      .ok (Session.follow generator.provider generator.tree.render session) := by
    rw [draws]
    exact Guarded.render_follows below inOrder
  refine ⟨makes session, ?_, ?_, ?_, ?_⟩
  · rw [Generator.count, draws]
    exact Guarded.count_follows below inOrder storable session
  · intro requested
    rw [Guarded.renderList, Guarded.take_eq_ok makes]
    rfl
  · intro requested
    rw [Guarded.renderDistinct, Generator.renderDistinct,
      Guarded.distinct_eq_ok makes (Batch.budget_lt_wordSize _ _), Guarded.ok_bind]
    dsimp only
    split <;> rfl
  · intro patience requested
    rw [Guarded.renderSet?, Guarded.gather_eq_ok makes]
    rfl

/-- All words as lengths, no operand to choose and no text to choose. -/
theorem Generator.runs_without_breakdown_at_extremes :
    let everyLength : Node := .characterSet ['a', 'b'] (.between 0 (wordSize - 1))
    let tree : Node :=
      .sequence [.permutation [everyLength, .literal ['c']], .alternation [], .reference ['n']]
    let generator : Generator Unit := ⟨[], tree, {}, .ofIndex Pick.lowest "lowest"⟩
    let session : Session Unit := ⟨(), Bindings.empty.insert ['n'] (.choices []), []⟩
    Pick.StaysBelow Pick.lowest ∧ tree.IsOrdered ∧ tree.IsStorable ∧
      Guarded.render Pick.lowest tree session = .ok (generator.render session) ∧
        Guarded.count Pick.lowest tree session = .ok (generator.count session) := by
  intro everyLength tree generator session
  have ordered : tree.IsOrdered := by
    simp [tree, everyLength, Node.IsOrdered, Node.Every, Node.EveryAmong, Node.RepeatsInOrder,
      Repetition.IsOrdered, wordSize]
  have storable : tree.IsStorable := by
    simp [tree, everyLength, Node.IsStorable, Node.Every, Node.EveryAmong, Node.HoldsWords,
      Repetition.IsInWords, wordSize]
  have runs := Generator.runs_without_breakdown Pick.lowest_staysBelow
    (rfl : generator.provider = _) (.inl ordered) storable session
  exact ⟨Pick.lowest_staysBelow, ordered, storable, runs.1, runs.2.1⟩

end TextTemplate
