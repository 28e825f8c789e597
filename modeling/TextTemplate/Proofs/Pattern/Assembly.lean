import Mathlib.Data.List.Forall2
import TextTemplate.Pattern.Assembly
import TextTemplate.Proofs.Pattern.Derivations

/-!
# What chains keep

Chains go through the same states as their fields.  In every state that parts lead to, the parts
can be read back from the nodes, and so nothing is lost, doubled or moved.
-/

namespace TextTemplate

open List (Forall₂)

/-! ## Chains and their fields -/

namespace Chain

variable {chain : Chain}

theorem assembly_take (chain : Chain) (part : SequencePart) :
    chain.assembly.take part =
      match chain.take part with
      | .ok later => (.ok (), later.assembly)
      | .error fault => (.error fault, chain.assembly) := by
  cases part with
  | item node =>
      cases chain with
      | settled nodes =>
          simp [take, push, Assembly.take, Assembly.pushItem, assembly, Assembly.flush]
      | waiting nodes operator operands =>
          simp [take, push, Assembly.take, Assembly.pushItem, assembly]
      | joined nodes operator operands =>
          simp [take, push, Assembly.take, Assembly.pushItem, assembly, Assembly.flush, runNode]
  | operator operator =>
      cases chain with
      | settled nodes =>
          cases nodes with
          | nil => rfl
          | cons left nodes => simp [take, join, Assembly.take, Assembly.pushOperator, assembly]
      | waiting nodes pending operands => rfl
      | joined nodes pending operands =>
          by_cases same : pending = operator
          · simp [take, join, Assembly.take, Assembly.pushOperator, assembly, same]
          · simp [take, join, Assembly.take, Assembly.pushOperator, assembly, same, runNode]

end Chain

/-! ## Parts and the nodes that hold them -/

/--
The parts that a node is made of, from left to right: an item by itself, and a node made for a run
from its operands, with the operator between any two of them.
-/
inductive Spells : List SequencePart → Node → Prop where
  | item (node : Node) : Spells [.item node] node
  | run (operator : Operator) {earlier : List (List SequencePart)} {last : List SequencePart}
      {operands : List Node} (several : earlier ≠ [])
      (each : Forall₂ Spells (earlier ++ [last]) operands) :
      Spells (earlier.flatMap (· ++ [.operator operator]) ++ last) (operator.combine operands)

namespace Chain

/-- The parts that led to a chain.  What they spell is listed as in the chain, latest first. -/
inductive Holds : List SequencePart → Chain → Prop where
  | settled {spelt : List (List SequencePart)} {nodes : List Node}
      (each : Forall₂ Spells spelt nodes) : Holds spelt.reverse.flatten (.settled nodes)
  | waiting {spelt spelling : List (List SequencePart)} {nodes operands : List Node}
      (operator : Operator) (each : Forall₂ Spells spelt nodes) (some : spelling ≠ [])
      (eachOperand : Forall₂ Spells spelling operands) :
      Holds (spelt.reverse.flatten ++ spelling.reverse.flatMap (· ++ [.operator operator]))
        (.waiting nodes operator operands)
  | joined {spelt earlier : List (List SequencePart)} {last : List SequencePart}
      {nodes operands : List Node} (operator : Operator) (each : Forall₂ Spells spelt nodes)
      (several : earlier ≠ []) (eachOperand : Forall₂ Spells (last :: earlier) operands) :
      Holds
        (spelt.reverse.flatten ++
          (earlier.reverse.flatMap (· ++ [.operator operator]) ++ last))
        (.joined nodes operator operands)

/-- The node of a run spells its operands. -/
theorem spells_runNode (operator : Operator) {earlier : List (List SequencePart)}
    {last : List SequencePart} {operands : List Node} (several : earlier ≠ [])
    (eachOperand : Forall₂ Spells (last :: earlier) operands) :
    Spells (earlier.reverse.flatMap (· ++ [.operator operator]) ++ last)
      (runNode operator operands) := by
  refine .run operator (mt List.reverse_eq_nil_iff.mp several) ?_
  rw [← List.reverse_cons, List.forall₂_reverse_iff]
  exact eachOperand

namespace Holds

variable {parts : List SequencePart} {chain later : Chain}

theorem push (holds : Holds parts chain) (node : Node) :
    Holds (parts ++ [.item node]) (chain.push node) := by
  cases holds with
  | settled each =>
      have longer := Holds.settled (.cons (.item node) each)
      simpa [Chain.push] using longer
  | waiting operator each some eachOperand =>
      have longer := Holds.joined operator each some (.cons (.item node) eachOperand)
      simpa [Chain.push] using longer
  | joined operator each several eachOperand =>
      have run := spells_runNode operator several eachOperand
      have longer := Holds.settled (.cons (.item node) (.cons run each))
      simpa [Chain.push] using longer

theorem join (holds : Holds parts chain) {operator : Operator}
    (joins : chain.join operator = .ok later) :
    Holds (parts ++ [.operator operator]) later := by
  cases holds with
  | settled each =>
      cases each with
      | nil => cases joins
      | cons left each =>
          cases joins
          have begun := Holds.waiting operator each (List.cons_ne_nil _ []) (.cons left .nil)
          simpa using begun
  | waiting pending each some eachOperand => cases joins
  | joined pending each several eachOperand =>
      rw [Chain.join] at joins
      split at joins
      · next same =>
          subst same
          cases joins
          have continued := Holds.waiting pending each (List.cons_ne_nil _ _) eachOperand
          simpa using continued
      · cases joins
        have run := spells_runNode pending several eachOperand
        have begun := Holds.waiting operator each (List.cons_ne_nil _ []) (.cons run .nil)
        simpa using begun

/-- What one part does, be it refused or not. -/
theorem take (holds : Holds parts chain) {part : SequencePart}
    (takes : chain.take part = .ok later) : Holds (parts ++ [part]) later := by
  cases part with
  | item node =>
      cases takes
      exact holds.push node
  | operator operator => exact holds.join takes

theorem after (holds : Holds parts chain) (more : List SequencePart) :
    Holds (parts ++ chain.assembly.accepted more) (chain.after more) := by
  induction more generalizing parts chain with
  | nil => simpa [Assembly.accepted, Chain.after] using holds
  | cons part rest ih =>
      rw [Assembly.accepted, assembly_take, Chain.after]
      cases takes : chain.take part with
      | ok later =>
          have longer := ih (holds.take takes)
          rwa [List.append_assoc] at longer
      | error fault => exact ih holds

/-- A run that can go on has an operand already, and one that is not waiting has two. -/
theorem operands (holds : Holds parts chain) :
    ∀ operator operands, chain.assembly.run? = some (operator, operands) →
      1 ≤ operands.length ∧ (chain.assembly.isAwaiting = false → 2 ≤ operands.length) := by
  intro operator operands isRun
  cases holds with
  | settled each => cases isRun
  | waiting pending each some eachOperand =>
      cases isRun
      have sameLength := eachOperand.length_eq
      have positive := List.length_pos_iff.mpr some
      rw [List.length_reverse]
      exact ⟨by omega, fun ready => nomatch ready⟩
  | joined pending each several eachOperand =>
      cases isRun
      have sameLength := eachOperand.length_eq
      have positive := List.length_pos_iff.mpr several
      rw [List.length_cons] at sameLength
      rw [List.length_reverse]
      exact ⟨by omega, fun _ => by omega⟩

/-- The nodes of a finished sequence spell its parts. -/
theorem finish (holds : Holds parts chain) (ready : chain.IsReady) :
    ∃ spelt, Forall₂ Spells spelt chain.assembly.finish ∧ spelt.flatten = parts := by
  cases holds with
  | @settled spelt nodes each => exact ⟨spelt.reverse, List.forall₂_reverse_iff.mpr each, rfl⟩
  | waiting operator each some eachOperand => exact False.elim ready
  | @joined spelt earlier last nodes operands operator each several eachOperand =>
      have run := spells_runNode operator several eachOperand
      have whole := List.forall₂_reverse_iff.mpr (Forall₂.cons run each)
      rw [List.reverse_cons, List.reverse_cons] at whole
      exact
        ⟨spelt.reverse ++ [earlier.reverse.flatMap (· ++ [.operator operator]) ++ last], whole,
          by simp⟩

end Holds

end Chain

end TextTemplate
