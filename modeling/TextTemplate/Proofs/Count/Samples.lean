import TextTemplate.Proofs.Count.Renderings
import TextTemplate.Proofs.Random.Providers

/-!
# Counts from one sample

A permutation over sets is counted by the arrangements of one sample.  The sample is a text of
the operands, so all its arrangements are renderings of the permutation: the count is never
more than can be reached.
-/

namespace TextTemplate

open Recipe

namespace Node

variable {σ : Type} {pick : Nat → σ → Nat × σ} {label : String} {operands : List Node}

/-- Flat operands are counted by the arrangements of the text that the provider leads them to. -/
theorem follow_count_permutation (provider : Provider σ) (session : Session σ)
    (flat : ∀ operand ∈ operands, operand.IsFlat) :
    (session.follow provider (Node.permutation operands).count).1 =
      countArrangements (session.follow provider (concat (renderEach operands))).1 := by
  rw [count, operandFault?_eq_none_iff.mpr flat, Session.follow_bind]
  rfl

theorem hasReference_permutation_eq_false (flat : ∀ operand ∈ operands, operand.IsFlat) :
    (Node.permutation operands).hasReference = false := by
  refine hasReference_eq_false_iff.mpr (every_iff.mpr ⟨nofun, ?_⟩)
  intro operand member
  refine every_of_isFlat (flat operand member) ?_
  rintro name rfl
  exact flat _ member

/-- The sample of flat operands is one of their texts, whatever is bound. -/
theorem languageAll_follow_concat (below : Pick.StaysBelow pick)
    (flat : ∀ operand ∈ operands, operand.IsFlat)
    (ordered : (Node.permutation operands).IsOrdered) (session : Session σ)
    (bindings : Bindings) :
    LanguageAll bindings operands
      (session.follow (Provider.ofIndex pick label) (concat (renderEach operands))).1 := by
  have inOrder : ∀ operand ∈ operands, operand.IsOrdered := (every_iff.mp ordered).2
  have within : (Provider.ofIndex pick label).AnswersWithin :=
    Provider.answersWithin_of_integerWith below rfl (shuffleWith_perm pick)
  have closed := hasReference_eq_false_iff.mp (hasReference_permutation_eq_false flat)
  have answerable : (concat (renderEach operands)).AsksOnly Question.IsAnswerable := by
    apply concatBehind_asksOnly
    rw [renderEach_eq_map, List.forall_mem_map]
    exact fun operand member => (inOrder operand member).render_isAnswerable
  have draws : (concat (renderEach operands)).AsksOnly Question.IsDraw := by
    apply concatBehind_asksOnly
    rw [renderEach_eq_map, List.forall_mem_map]
    intro operand member
    exact render_isDraw (hasReference_eq_false_iff.mpr ((every_iff.mp closed).2 operand member))
  refine (concat_yields fun operand member => render_yields_iff (inOrder operand member)).mp ?_
  exact Session.yields_follow_of_answersWithin within answerable draws session

/--
The count of a permutation of literals and sets can be reached, whatever sample it was made
from: it is at least one, and as many different texts of one length can be rendered.
-/
theorem exists_renderings_of_sampled_count {number : Nat} (below : Pick.StaysBelow pick)
    (flat : ∀ operand ∈ operands, operand.IsFlat)
    (ordered : (Node.permutation operands).IsOrdered) (session : Session σ)
    (counted : (session.follow (Provider.ofIndex pick label)
      (Node.permutation operands).count).1 = .ok number) (bindings : Bindings) :
    1 ≤ number ∧ ∃ texts : Finset (List Char), texts.card = number ∧
      (∀ text ∈ texts, text ∈ (Node.permutation operands).renderings bindings) ∧
        ∃ length, ∀ text ∈ texts, text.length = length := by
  obtain ⟨sample, same⟩ : ∃ sample, (session.follow (Provider.ofIndex pick label)
    (concat (renderEach operands))).1 = sample := ⟨_, rfl⟩
  have inAll := @languageAll_follow_concat _ _ label _ below flat ordered session bindings
  rw [follow_count_permutation _ _ flat, same] at counted
  rw [same] at inAll
  have exact := eq_card_of_countArrangements counted
  have closed := hasReference_permutation_eq_false flat
  refine ⟨?_, arrangements sample, exact.symm, ?_, sample.length, ?_⟩
  · rw [exact]
    exact Finset.card_pos.mpr ⟨sample, mem_arrangements_iff.mpr (.refl sample)⟩
  · intro text member
    rw [renderings_eq_language ordered closed]
    exact ⟨sample, inAll, mem_arrangements_iff.mp member⟩
  · intro text member
    exact (mem_arrangements_iff.mp member).length_eq

/-- A sample of three letters out of a set, two of them equal, behind two letters of a literal. -/
theorem exists_renderings_of_counted_sample :
    let operands : List Node := [.literal ['a', 'b'], .characterSet ['a', 'a', 'b'] (.between 1 3)]
    let session : Session Nat := ⟨2, .empty, []⟩
    (Pick.StaysBelow Pick.cycle ∧ (∀ operand ∈ operands, operand.IsFlat) ∧
      (Node.permutation operands).IsOrdered) ∧
      (session.follow (Provider.ofIndex Pick.cycle "cycle")
        (Node.permutation operands).count).1 = .ok 10 ∧
      ∃ texts : Finset (List Char), texts.card = 10 ∧
        (∀ text ∈ texts, text ∈ (Node.permutation operands).renderings .empty) ∧
          ∃ length, ∀ text ∈ texts, text.length = length := by
  intro operands session
  have below : Pick.StaysBelow Pick.cycle := fun bound state positive => Nat.mod_lt state positive
  have flat : ∀ operand ∈ operands, operand.IsFlat := by simp [operands, IsFlat]
  have ordered : (Node.permutation operands).IsOrdered := by
    simp [operands, IsOrdered, Every, EveryAmong, RepeatsInOrder, Repetition.IsOrdered, wordSize]
  have counted : (session.follow (Provider.ofIndex Pick.cycle "cycle")
      (Node.permutation operands).count).1 = .ok 10 := by cbv
  exact ⟨⟨below, flat, ordered⟩, counted,
    (exists_renderings_of_sampled_count below flat ordered session counted .empty).2⟩

end Node

end TextTemplate
