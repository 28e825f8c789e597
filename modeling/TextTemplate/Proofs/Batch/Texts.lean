import Mathlib.Algebra.Group.Nat.Defs
import Mathlib.Data.Finset.Card
import Mathlib.Order.Bounds.Defs
import TextTemplate.Generator
import TextTemplate.Proofs.Batch.Streams

/-!
# Batches of texts

The batches of a generator are fronts of the stream of its renderings, and they leave the
session as so many single renderings would.
-/

namespace TextTemplate

open Batch

/-- The number of first occurrences is the number of different items. -/
theorem Batch.length_eraseDups_eq_card {α : Type} [DecidableEq α] [BEq α] [LawfulBEq α]
    (items : List α) : items.eraseDups.length = items.toFinset.card := by
  rw [← List.toFinset_card_of_nodup (nodup_eraseDups items)]
  congr 1
  ext item
  simp

namespace Batch.StopsAfter

variable {σ α : Type} [BEq α] {next : σ → α × σ} {requested maxAttempts attempts : Nat}
  {state : σ}

/-- With enough different items within the attempts, the last attempt is the first with as many. -/
theorem eq_of_isLeast (stops : StopsAfter next requested maxAttempts state attempts)
    {least : Nat} (isLeast : IsLeast {count | count ≤ maxAttempts ∧
      distinctCount next count state = requested} least) : attempts = least := by
  obtain ⟨⟨within, complete⟩, first⟩ := isLeast
  rcases Nat.lt_trichotomy attempts least with before | same | behind
  · rcases stops.complete_or_spent with ⟨done, allowed⟩ | ⟨_, spent⟩
    · exact absurd (first ⟨allowed, done⟩) (Nat.not_le.mpr before)
    · omega
  · exact same
  · have unfinished := stops.unfinished least behind
    omega

/-- Without enough different items, all attempts are made. -/
theorem eq_of_forall_ne (stops : StopsAfter next requested maxAttempts state attempts)
    (never : ∀ count ≤ maxAttempts, distinctCount next count state ≠ requested) :
    attempts = maxAttempts ∧ distinctCount next maxAttempts state < requested := by
  rcases stops.complete_or_spent with ⟨done, allowed⟩ | ⟨fewer, rfl⟩
  · exact absurd done (never attempts allowed)
  · exact ⟨rfl, fewer⟩

end Batch.StopsAfter

namespace Generator

variable {σ : Type}

/-- A plain batch of texts is the front of the stream of renderings. -/
theorem renderList_eq (generator : Generator σ) (requested : Nat) (session : Session σ) :
    generator.renderList requested session =
      ⟨.ok (firstItems generator.render requested session), reports requested requested,
        stateBehind generator.render requested session⟩ := by
  have taken := take_eq generator.render requested session
  exact congrArg (fun batch : Batch (Session σ) (List Char) =>
    (⟨.ok batch.items, batch.progress, batch.state⟩ : TextBatch σ)) taken

/-- A distinct batch of texts, by the attempt behind which it stops. -/
theorem exists_renderDistinct_eq (generator : Generator σ) (requested : Nat)
    (session : Session σ) :
    ∃ attempts, StopsAfter generator.render requested
        (budget requested generator.config.attemptsFactor) session attempts ∧
      generator.renderDistinct requested session =
        if distinctCount generator.render attempts session < requested then
          ⟨.error ⟨requested, distinctCount generator.render attempts session, attempts⟩,
            reports requested (distinctCount generator.render attempts session),
            (stateBehind generator.render attempts session).note (.budgetExhausted
              (distinctCount generator.render attempts session) requested attempts)⟩
        else
          ⟨.ok (firstItems generator.render attempts session).eraseDups,
            reports requested (distinctCount generator.render attempts session),
            (stateBehind generator.render attempts session).note
              (.uniqueBatch requested attempts)⟩ := by
  obtain ⟨attempts, stops, taken⟩ := exists_distinct_eq generator.render requested
    (budget requested generator.config.attemptsFactor) session
  refine ⟨attempts, stops, ?_⟩
  have unfolded : generator.renderDistinct requested session =
      (fun batch : Batch (Session σ) (List Char) =>
        if batch.items.length < requested then
          (⟨.error ⟨requested, batch.items.length, batch.attempts⟩, batch.progress,
            batch.state.note (.budgetExhausted batch.items.length requested batch.attempts)⟩ :
              TextBatch σ)
        else
          ⟨.ok batch.items, batch.progress,
            batch.state.note (.uniqueBatch requested batch.attempts)⟩)
        (distinct generator.render requested
          (budget requested generator.config.attemptsFactor) session) :=
    rfl
  rw [unfolded, taken]
  rfl

/--
The batches of a generator in terms of its successive renderings.  A plain batch holds the
first ones.  A distinct batch holds the first occurrences up to the first rendering with which
there are enough of them, and it fails when that one lies outside the budget; all renderings
up to there have been made, and every accepted text has been reported.
-/
theorem batches_filter_renderings (generator : Generator σ) (requested : Nat)
    (session : Session σ) :
    let texts := fun count => firstItems generator.render count session
    let behind := fun count => stateBehind generator.render count session
    let produced := fun count => (texts count).toFinset.card
    let budget := min (requested * generator.config.attemptsFactor) (2 ^ 64 - 1)
    generator.renderList requested session =
        ⟨.ok (texts requested), reports requested requested, behind requested⟩ ∧
      (∀ attempts, IsLeast {count | count ≤ budget ∧ produced count = requested} attempts →
        (texts attempts).eraseDups.length = requested ∧ (texts attempts).eraseDups.Nodup ∧
          generator.renderDistinct requested session =
            ⟨.ok (texts attempts).eraseDups, reports requested requested,
              (behind attempts).note (.uniqueBatch requested attempts)⟩) ∧
      ((∀ count ≤ budget, produced count ≠ requested) →
        produced budget < requested ∧
          generator.renderDistinct requested session =
            ⟨.error ⟨requested, produced budget, budget⟩, reports requested (produced budget),
              (behind budget).note
                (.budgetExhausted (produced budget) requested budget)⟩) := by
  intro texts behind produced budget
  have counts (count : Nat) : produced count = distinctCount generator.render count session :=
    (length_eraseDups_eq_card (texts count)).symm
  obtain ⟨attempts, stops, batch⟩ := exists_renderDistinct_eq generator requested session
  refine ⟨generator.renderList_eq requested session, ?_, ?_⟩
  · intro least isLeast
    simp only [counts] at isLeast
    obtain rfl := stops.eq_of_isLeast isLeast
    have complete : distinctCount generator.render attempts session = requested := isLeast.1.2
    refine ⟨complete, nodup_eraseDups _, ?_⟩
    rw [batch, complete, if_neg (Nat.lt_irrefl requested)]
  · intro never
    simp only [counts] at never ⊢
    obtain ⟨rfl, fewer⟩ := stops.eq_of_forall_ne never
    exact ⟨fewer, by rw [batch, if_pos fewer]; rfl⟩

/-- Two letters in turn: the second attempt of two completes a pair, and three attempts fail. -/
theorem batches_of_two_letters :
    let generator : Generator Nat := ⟨"a|b".toList,
      .sequence [.alternation [.literal ['a'], .literal ['b']]], { attemptsFactor := 1 },
      Provider.ofIndex Pick.cycle "cycle"⟩
    let session : Session Nat := ⟨0, .empty, []⟩
    (generator.renderDistinct 2 session).outcome = .ok [['a'], ['b']] ∧
      (generator.renderDistinct 3 session).outcome = .error ⟨3, 2, 3⟩ := by
  intro generator session
  have produced : ∀ count ≤ 3,
      (firstItems generator.render count session).toFinset.card = min count 2 := by
    decide
  constructor
  · obtain ⟨-, complete, -⟩ := batches_filter_renderings generator 2 session
    have least : IsLeast {count | count ≤ 2 ∧
        (firstItems generator.render count session).toFinset.card = 2} 2 := by
      refine ⟨⟨Nat.le_refl 2, produced 2 (by decide)⟩, ?_⟩
      rintro count ⟨within, enough⟩
      rw [produced count (by omega)] at enough
      omega
    exact congrArg TextBatch.outcome (complete 2 least).2.2
  · obtain ⟨-, -, fails⟩ := batches_filter_renderings generator 3 session
    have never : ∀ count ≤ 3,
        (firstItems generator.render count session).toFinset.card ≠ 3 := by
      intro count within
      rw [produced count within]
      omega
    have batch := (fails never).2
    have most : min (3 * generator.config.attemptsFactor) (2 ^ 64 - 1) = 3 := by decide
    simp only [most, produced 3 (Nat.le_refl 3)] at batch
    exact congrArg TextBatch.outcome batch

end Generator

end TextTemplate
