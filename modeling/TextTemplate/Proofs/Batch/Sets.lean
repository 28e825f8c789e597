import Std.Data.HashSet.Lemmas
import TextTemplate.Proofs.Batch.Texts

/-!
# Sets and distinct batches

A set takes in the same stream that a distinct batch goes through, and both stop as soon as
there are enough different items.  The batch has a budget and the set has none, so whatever a
batch completes is completed as a set.
-/

namespace TextTemplate

open Batch

namespace Batch

variable {σ α : Type} [BEq α] [LawfulBEq α] {next : σ → α × σ} {requested count : Nat}
  {state : σ}

/-- A stream has so many different items behind `attempts` items, and not before. -/
structure CompletesAt (next : σ → α × σ) (requested : Nat) (state : σ) (attempts : Nat) :
    Prop where
  unfinished : ∀ earlier < attempts, distinctCount next earlier state < requested
  complete : distinctCount next attempts state = requested

namespace StopsAfter

variable {maxAttempts attempts : Nat}

omit [LawfulBEq α] in
/-- A batch that stops with enough items stops where its stream completes. -/
theorem completesAt (stops : StopsAfter next requested maxAttempts state attempts)
    (enough : ¬ distinctCount next attempts state < requested) :
    CompletesAt next requested state attempts ∧ attempts ≤ maxAttempts := by
  rcases stops.complete_or_spent with ⟨complete, within⟩ | ⟨fewer, -⟩
  · exact ⟨⟨stops.unfinished, complete⟩, within⟩
  · exact absurd fewer enough

omit [LawfulBEq α] in
/-- A batch whose attempts allow for it stops where its stream completes. -/
theorem eq_of_completesAt (stops : StopsAfter next requested maxAttempts state attempts)
    {last : Nat} (completes : CompletesAt next requested state last)
    (within : last ≤ maxAttempts) : attempts = last := by
  rcases Nat.lt_trichotomy attempts last with before | same | behind
  · have fewer := completes.unfinished attempts before
    rcases stops.complete_or_spent with ⟨complete, -⟩ | ⟨-, spent⟩
    · omega
    · omega
  · exact same
  · have fewer := stops.unfinished last behind
    rw [completes.complete] at fewer
    exact absurd fewer (Nat.lt_irrefl requested)

end StopsAfter

variable [Hashable α] [LawfulHashable α] {seen : Std.HashSet α}

/-- A set that holds the first items of a stream lists the first occurrences among them. -/
theorem HoldsFirst.toList_perm (holds : HoldsFirst next count state seen) :
    seen.toList.Perm (firstItems next count state).eraseDups := by
  have nodup : seen.toList.Nodup :=
    Std.HashSet.distinct_toList.imp fun differ same => by simp [same] at differ
  apply (List.perm_ext_iff_of_nodup nodup (nodup_eraseDups _)).mpr
  intro item
  rw [Std.HashSet.mem_toList, ← Std.HashSet.contains_iff_mem, holds, List.mem_eraseDups]

theorem HoldsFirst.size_eq (holds : HoldsFirst next count state seen) :
    seen.size = distinctCount next count state := by
  rw [← Std.HashSet.length_toList, holds.toList_perm.length_eq, distinctCount]

/--
From any item on, a set goes on to where the stream completes.  It is given up exactly when
the patience is less than the number of items up to there.
-/
theorem HoldsFirst.exists_gather_eq {missing : Nat} (holds : HoldsFirst next count state seen)
    (completes : CompletesAt next requested state (count + missing)) :
    ∃ gathered, HoldsFirst next (count + missing) state gathered ∧
      ∀ patience, gather next requested patience seen (stateBehind next count state) =
        if missing ≤ patience then some (gathered, stateBehind next (count + missing) state)
        else none := by
  induction missing generalizing count seen with
  | zero =>
      have enough : requested ≤ seen.size := by
        rw [holds.size_eq]
        exact completes.complete.ge
      refine ⟨seen, holds, ?_⟩
      intro patience
      rw [if_pos (Nat.zero_le patience)]
      cases patience <;> exact if_pos enough
  | succ missing ih =>
      have short : ¬ requested ≤ seen.size := by
        rw [holds.size_eq, Nat.not_le]
        exact completes.unfinished count (by omega)
      have later : count + (missing + 1) = count + 1 + missing := by omega
      rw [later] at completes ⊢
      obtain ⟨gathered, holdsLast, goesOn⟩ := ih holds.insert completes
      refine ⟨gathered, holdsLast, ?_⟩
      intro patience
      cases patience with
      | zero => exact if_neg short
      | succ patience =>
          rw [gather, if_neg short]
          simp only [Nat.succ_le_succ_iff, ← goesOn patience, stateBehind_succ]
          rfl

end Batch

/-- A noted event and what was there before it can be told apart. -/
theorem Session.note_eq_note_iff {σ : Type} {session other : Session σ} {event later : Event} :
    session.note event = other.note later ↔ session = other ∧ event = later := by
  cases session
  cases other
  simp only [note, Session.mk.injEq, List.cons.injEq]
  tauto

namespace Generator

variable {σ : Type}

/-- A distinct batch is completed when its stream completes within the budget. -/
theorem renderDistinct_of_completesAt (generator : Generator σ) {requested attempts : Nat}
    {session : Session σ} (completes : CompletesAt generator.render requested session attempts)
    (within : attempts ≤ budget requested generator.config.attemptsFactor) :
    generator.renderDistinct requested session =
      ⟨.ok (firstItems generator.render attempts session).eraseDups,
        reports requested requested,
        (stateBehind generator.render attempts session).note
          (.uniqueBatch requested attempts)⟩ := by
  obtain ⟨last, stops, batch⟩ := exists_renderDistinct_eq generator requested session
  obtain rfl := stops.eq_of_completesAt completes within
  rw [batch, completes.complete, if_neg (Nat.lt_irrefl requested)]

/-- A set of texts takes as many renderings as its stream needs. -/
theorem exists_renderSet?_eq (generator : Generator σ) {requested attempts : Nat}
    {session : Session σ} (completes : CompletesAt generator.render requested session attempts) :
    ∃ gathered, gathered.Perm (firstItems generator.render attempts session).eraseDups ∧
      ∀ patience, generator.renderSet? patience requested session =
        if attempts ≤ patience then
          some (gathered, stateBehind generator.render attempts session)
        else none := by
  have nothing : HoldsFirst generator.render 0 session ∅ := holdsFirst_empty
  rw [← Nat.zero_add attempts] at completes
  obtain ⟨texts, holds, gathers⟩ := nothing.exists_gather_eq completes
  rw [Nat.zero_add] at holds gathers
  refine ⟨texts.toList.mergeSort textLE, ?_, ?_⟩
  · exact (List.mergeSort_perm _ _).trans holds.toList_perm
  · intro patience
    have search : gather generator.render requested patience ∅ session = _ := gathers patience
    have unfolded : generator.renderSet? patience requested session =
        (gather generator.render requested patience ∅ session).map fun found =>
          (found.1.toList.mergeSort textLE, found.2) :=
      rfl
    rw [unfolded, search]
    split <;> rfl

/--
Whenever a distinct batch is completed, the set of as many texts is completed too, from the
same session and by the same number of renderings.  It holds exactly the texts of the batch,
and the session behind it is the one behind the batch but for the event that closes the batch.
-/
theorem renderSet?_of_renderDistinct (generator : Generator σ) {requested : Nat}
    {session : Session σ} {texts : List (List Char)}
    (completed : (generator.renderDistinct requested session).outcome = .ok texts) :
    ∃ attempts ≤ min (requested * generator.config.attemptsFactor) (2 ^ 64 - 1),
      ∃ gathered later,
        (∀ patience, generator.renderSet? patience requested session =
          if attempts ≤ patience then some (gathered, later) else none) ∧
        gathered.Perm texts ∧ gathered.Nodup ∧ gathered.length = requested ∧
        (generator.renderDistinct requested session).session =
          later.note (.uniqueBatch requested attempts) := by
  obtain ⟨attempts, stops, batch⟩ := exists_renderDistinct_eq generator requested session
  rw [batch] at completed ⊢
  split at completed
  · cases completed
  · next enough =>
      obtain rfl := Except.ok.inj completed
      obtain ⟨completes, within⟩ := stops.completesAt enough
      obtain ⟨gathered, same, search⟩ := generator.exists_renderSet?_eq completes
      refine ⟨attempts, within, gathered, _, search, same, ?_, ?_, ?_⟩
      · exact same.nodup_iff.mpr (nodup_eraseDups _)
      · exact same.length_eq.trans completes.complete
      · rw [if_neg enough]

/-- The third rendering completes the pair; the function was called for that one alone. -/
theorem renderSet?_of_late_second_text :
    let tree : Node := .sequence [.alternation [.literal ['a'], .reference ['n']]]
    let generator : Generator Nat := ⟨"a|$\x7bn\x7d".toList, tree, { attemptsFactor := 2 },
      Provider.ofIndex (Pick.listed #[0, 0, 1]) "listed"⟩
    let results : Nat → List Char := fun calls => 'b' :: List.replicate calls 'c'
    let session : Session Nat := ⟨0, ⟨[(['n'], .function results 0)]⟩, []⟩
    (generator.renderDistinct 2 session).outcome = .ok [['a'], ['b']] ∧
      generator.renderSet? 2 2 session = none ∧
      ∃ gathered later, generator.renderSet? 3 2 session = some (gathered, later) ∧
        gathered.Perm [['a'], ['b']] ∧ later.randomness = 3 ∧
        (later.resolve generator.provider ['n']).1 = ['b', 'c'] := by
  intro tree generator results session
  have completes : CompletesAt generator.render 2 session 3 := ⟨by decide, by decide⟩
  have within : 3 ≤ budget 2 generator.config.attemptsFactor := by decide
  have batch := generator.renderDistinct_of_completesAt completes within
  have texts : (firstItems generator.render 3 session).eraseDups = [['a'], ['b']] := by decide
  rw [texts] at batch
  have completed := congrArg TextBatch.outcome batch
  obtain ⟨attempts, -, gathered, later, search, same, -, -, closes⟩ :=
    generator.renderSet?_of_renderDistinct completed
  rw [batch] at closes
  -- The closing event tells that the set needed three renderings, as the batch did.
  obtain ⟨rfl, three⟩ := Session.note_eq_note_iff.mp closes
  obtain rfl : 3 = attempts := (Event.uniqueBatch.inj three).2
  refine ⟨completed, (search 2).trans (if_neg (by decide)), gathered, _,
    (search 3).trans (if_pos (by decide)), same, ?_, ?_⟩
  · decide
  · decide

end Generator

end TextTemplate
