import TextTemplate.Batch

/-!
# Batches of related streams

Two streams whose states are related as long as they yield the same items lead every batch to
the same outcome, and to related states.
-/

namespace TextTemplate

namespace Batch

variable {σ τ α : Type} {next : σ → α × σ} {next' : τ → α × τ} {related : σ → τ → Prop}

/-- Related states yield the same item and lead to related states. -/
def StepsAlike (next : σ → α × σ) (next' : τ → α × τ) (related : σ → τ → Prop) : Prop :=
  ∀ state state', related state state' →
    (next state).1 = (next' state').1 ∧ related (next state).2 (next' state').2

/-- Two batches differ only in their states, which are related. -/
structure IsAlike (related : σ → τ → Prop) (batch : Batch σ α) (batch' : Batch τ α) :
    Prop where
  items : batch.items = batch'.items
  progress : batch.progress = batch'.progress
  attempts : batch.attempts = batch'.attempts
  state : related batch.state batch'.state

namespace IsAlike

variable {batch : Batch σ α} {batch' : Batch τ α} {state : σ} {state' : τ}

theorem start (begins : related state state') :
    IsAlike related (Batch.start state : Batch σ α) (Batch.start state') :=
  ⟨rfl, rfl, rfl, begins⟩

theorem reject (alike : IsAlike related batch batch') (goesOn : related state state') :
    IsAlike related (batch.reject state) (batch'.reject state') :=
  ⟨alike.items, alike.progress, congrArg (· + 1) alike.attempts, goesOn⟩

theorem accept (alike : IsAlike related batch batch') (goesOn : related state state')
    (requested missing : Nat) (item : α) :
    IsAlike related (batch.accept requested missing item state)
      (batch'.accept requested missing item state') :=
  ⟨congrArg (item :: ·) alike.items, congrArg (_ :: ·) alike.progress,
    congrArg (· + 1) alike.attempts, goesOn⟩

theorem finish (alike : IsAlike related batch batch') :
    IsAlike related batch.finish batch'.finish :=
  ⟨congrArg List.reverse alike.items, congrArg List.reverse alike.progress, alike.attempts,
    alike.state⟩

theorem takeMore (alike : IsAlike related batch batch')
    (steps : StepsAlike next next' related) (requested missing : Nat) :
    IsAlike related (Batch.takeMore next requested missing batch)
      (Batch.takeMore next' requested missing batch') := by
  induction missing generalizing batch batch' with
  | zero => exact alike
  | succ missing ih =>
      obtain ⟨sameItem, goesOn⟩ := steps _ _ alike.state
      rw [Batch.takeMore, Batch.takeMore]
      simp only [sameItem]
      exact ih (alike.accept goesOn requested missing _)

variable [BEq α] [Hashable α]

theorem takeDistinct (alike : IsAlike related batch batch')
    (steps : StepsAlike next next' related) (requested attemptsLeft missing : Nat)
    (seen : Std.HashSet α) :
    IsAlike related (Batch.takeDistinct next requested attemptsLeft missing seen batch)
      (Batch.takeDistinct next' requested attemptsLeft missing seen batch') := by
  induction attemptsLeft generalizing missing seen batch batch' with
  | zero => cases missing <;> exact alike
  | succ attemptsLeft ih =>
      cases missing with
      | zero => exact alike
      | succ missing =>
          obtain ⟨sameItem, goesOn⟩ := steps _ _ alike.state
          rw [Batch.takeDistinct, Batch.takeDistinct]
          simp only [sameItem]
          split
          · exact ih (alike.reject goesOn) (missing + 1) seen
          · exact ih (alike.accept goesOn requested missing _) missing _

end IsAlike

namespace StepsAlike

variable {state : σ} {state' : τ}

theorem take (steps : StepsAlike next next' related) (begins : related state state')
    (requested : Nat) :
    IsAlike related (Batch.take next requested state) (Batch.take next' requested state') :=
  ((IsAlike.start begins).takeMore steps requested requested).finish

variable [BEq α] [Hashable α]

theorem distinct (steps : StepsAlike next next' related) (begins : related state state')
    (requested maxAttempts : Nat) :
    IsAlike related (Batch.distinct next requested maxAttempts state)
      (Batch.distinct next' requested maxAttempts state') :=
  ((IsAlike.start begins).takeDistinct steps requested maxAttempts requested ∅).finish

/-- Both searches are given up, or both end with the same set. -/
theorem gather (steps : StepsAlike next next' related) (begins : related state state')
    (requested patience : Nat) (gathered : Std.HashSet α) :
    Option.Rel (fun outcome outcome' => outcome.1 = outcome'.1 ∧ related outcome.2 outcome'.2)
      (Batch.gather next requested patience gathered state)
      (Batch.gather next' requested patience gathered state') := by
  induction patience generalizing gathered state state' with
  | zero =>
      rw [Batch.gather, Batch.gather]
      split
      · exact .some ⟨rfl, begins⟩
      · exact .none
  | succ patience ih =>
      rw [Batch.gather, Batch.gather]
      split
      · exact .some ⟨rfl, begins⟩
      · obtain ⟨sameItem, goesOn⟩ := steps _ _ begins
        simp only [sameItem]
        exact ih goesOn _

end StepsAlike

end Batch

end TextTemplate
