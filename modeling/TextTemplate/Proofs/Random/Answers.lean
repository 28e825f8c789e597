import TextTemplate.Random.Trace

/-!
# What the questions of a provider come down to

However a provider picks its indices, an integer or a rearrangement made from them is the one
that the same indices give when they are read from a list.
-/

namespace TextTemplate

/-! ## Answers within bounds -/

theorem withinBounds_append_iff {bounds later answers rest : List Nat}
    (length : answers.length = bounds.length) :
    WithinBounds (bounds ++ later) (answers ++ rest) ↔
      WithinBounds bounds answers ∧ WithinBounds later rest := by
  induction bounds generalizing answers with
  | nil =>
      rw [List.eq_nil_of_length_eq_zero length]
      exact ⟨fun within => ⟨trivial, within⟩, And.right⟩
  | cons bound bounds ih =>
      obtain ⟨answer, answers, rfl⟩ := List.exists_cons_of_length_eq_add_one length
      simp only [List.cons_append, WithinBounds, ih (Nat.succ.inj length), and_assoc]

theorem WithinBounds.length_eq {bounds answers : List Nat}
    (within : WithinBounds bounds answers) : answers.length = bounds.length := by
  induction bounds generalizing answers with
  | nil =>
      cases answers with
      | nil => rfl
      | cons answer answers => cases within
  | cons bound bounds ih =>
      cases answers with
      | nil => cases within
      | cons answer answers => exact congrArg (· + 1) (ih within.2)

theorem WithinBounds.append {bounds later answers rest : List Nat}
    (within : WithinBounds bounds answers) (withinLater : WithinBounds later rest) :
    WithinBounds (bounds ++ later) (answers ++ rest) :=
  (withinBounds_append_iff within.length_eq).mpr ⟨within, withinLater⟩

namespace Pick

variable {σ : Type}

/-- The answers to some bounds, one after the other. -/
def answers (pick : Nat → σ → Nat × σ) : List Nat → σ → List Nat × σ
  | [], state => ([], state)
  | bound :: bounds, state =>
      let (answer, later) := pick bound state
      let (rest, last) := answers pick bounds later
      (answer :: rest, last)

/-- Every index that is picked lies below the bound that was asked for. -/
def StaysBelow (pick : Nat → σ → Nat × σ) : Prop :=
  ∀ bound state, 0 < bound → (pick bound state).1 < bound

theorem lowest_staysBelow : StaysBelow lowest :=
  fun _ _ positive => positive

theorem answers_append (pick : Nat → σ → Nat × σ) (bounds later : List Nat) (state : σ) :
    answers pick (bounds ++ later) state =
      ((answers pick bounds state).1 ++
          (answers pick later (answers pick bounds state).2).1,
        (answers pick later (answers pick bounds state).2).2) := by
  induction bounds generalizing state with
  | nil => rfl
  | cons bound bounds ih => simp [answers, ih]

theorem length_answers (pick : Nat → σ → Nat × σ) (bounds : List Nat) (state : σ) :
    (answers pick bounds state).1.length = bounds.length := by
  induction bounds generalizing state with
  | nil => rfl
  | cons bound bounds ih => simp [answers, ih]

theorem StaysBelow.answers {pick : Nat → σ → Nat × σ} (below : StaysBelow pick)
    {bounds : List Nat} (positive : ∀ bound ∈ bounds, 0 < bound) (state : σ) :
    WithinBounds bounds (Pick.answers pick bounds state).1 := by
  induction bounds generalizing state with
  | nil => trivial
  | cons bound bounds ih =>
      refine ⟨below bound state (positive bound List.mem_cons_self), ?_⟩
      exact ih (fun bound member => positive bound (List.mem_cons_of_mem _ member)) _

/-- Recording changes no answer, and keeps the bounds that were asked for. -/
theorem answers_recorded (pick : Nat → σ → Nat × σ) (bounds : List Nat)
    (state : σ × List Nat) :
    answers (recorded pick) bounds state =
      ((answers pick bounds state.1).1, (answers pick bounds state.1).2,
        bounds.reverse ++ state.2) := by
  induction bounds generalizing state with
  | nil => rfl
  | cons bound bounds ih => simp [answers, recorded, ih]

theorem answers_recorded_bounds (pick : Nat → σ → Nat × σ) (bounds : List Nat)
    (state : σ × List Nat) :
    (answers (recorded pick) bounds state).2.2 = bounds.reverse ++ state.2 := by
  rw [answers_recorded]

/-- Recorded answers from a list are its first ones, and the bounds are kept. -/
theorem answers_recorded_scripted {bounds indices : List Nat}
    (within : WithinBounds bounds indices) (later asked : List Nat) :
    answers (recorded scripted) bounds (indices ++ later, asked) =
      (indices, (later, bounds.reverse ++ asked)) := by
  induction bounds generalizing indices asked with
  | nil =>
      cases indices with
      | nil => rfl
      | cons index indices => cases within
  | cons bound bounds ih =>
      cases indices with
      | nil => cases within
      | cons index indices =>
          have rest := ih within.2 (bound :: asked)
          simp only [List.cons_append, answers, recorded, scripted]
          rw [rest]
          simp

end Pick

/-! ## Integers and rearrangements -/

variable {σ : Type}

theorem integerBounds_pos {low high : Nat} : ∀ bound ∈ integerBounds low high, 0 < bound := by
  unfold integerBounds
  split <;> simp [wordSize]

theorem shuffleBounds_pos (length : Nat) : ∀ bound ∈ shuffleBounds length, 0 < bound := by
  induction length using shuffleBounds.induct with
  | case1 => simp [shuffleBounds]
  | case2 => simp [shuffleBounds]
  | case3 length ih => simpa [shuffleBounds] using ih

/-- An integer from any picker is the one from the list of the indices that it picks. -/
theorem integerWith_eq_scripted (pick : Nat → σ → Nat × σ) (low high : Nat) (state : σ) :
    integerWith pick low high state =
      ((integerWith Pick.scripted low high
          (Pick.answers pick (integerBounds low high) state).1).1,
        (Pick.answers pick (integerBounds low high) state).2) := by
  unfold integerWith integerBounds
  by_cases narrow : high - low + 1 < wordSize
  · simp [narrow, Pick.answers, Pick.scripted]
  · simp [narrow, Pick.answers, Pick.scripted]

theorem Shuffle.settle_eq_scripted (pick : Nat → σ → Nat × σ) (last : Nat)
    (characters : Array Char) (state : σ) :
    settle pick last characters state =
      ((settle Pick.scripted last characters
          (Pick.answers pick (shuffleBounds (last + 1)) state).1).1,
        (Pick.answers pick (shuffleBounds (last + 1)) state).2) := by
  induction last generalizing characters state with
  | zero => rfl
  | succ last ih => simp [settle, shuffleBounds, Pick.answers, Pick.scripted, ih]

theorem shuffleBounds_pred (length : Nat) :
    shuffleBounds (length - 1 + 1) = shuffleBounds length := by
  cases length with
  | zero => rfl
  | succ length => rfl

/-- A rearrangement by any picker is the one by the list of the indices that it picks. -/
theorem shuffleWith_eq_scripted (pick : Nat → σ → Nat × σ) (characters : List Char)
    (state : σ) :
    shuffleWith pick characters state =
      ((shuffleWith Pick.scripted characters
          (Pick.answers pick (shuffleBounds characters.length) state).1).1,
        (Pick.answers pick (shuffleBounds characters.length) state).2) := by
  unfold shuffleWith
  rw [Shuffle.settle_eq_scripted, shuffleBounds_pred]

end TextTemplate
