import TextTemplate.Count.Node
import TextTemplate.Proofs.Render.Questions

/-!
# What the count of a tree asks

Counting asks nothing but what the operands of flat permutations ask, since only their sample
is drawn.
-/

namespace TextTemplate

open Recipe

namespace Node

variable {allowed : Question → Prop}

/-- A node whose characters are drawn by itself: a literal or a set. -/
def IsFlat : Node → Prop
  | .literal _ => True
  | .characterSet _ _ => True
  | _ => False

/-- Nothing is wrong with the operands of a permutation exactly when all of them are flat. -/
theorem operandFault?_eq_none_iff {operands : List Node} :
    operandFault? operands = none ↔ ∀ operand ∈ operands, operand.IsFlat := by
  induction operands with
  | nil => simp [operandFault?]
  | cons operand rest ih => cases operand <;> simp [operandFault?, IsFlat, ih]

theorem every_of_isFlat {condition : Node → Prop} {node : Node} (flat : node.IsFlat)
    (holds : condition node) : node.Every condition := by
  cases node with
  | literal text => exact holds
  | characterSet members repetition => exact holds
  | sequence children => cases flat
  | alternation operands => cases flat
  | permutation operands => cases flat
  | reference name => cases flat

/-- One more count joins the counts of earlier trees, and counting goes on with the result. -/
def countThen (node : Node) (combine : Nat → Counted) (next : Nat → Recipe Counted) :
    Recipe Counted :=
  node.count.bind fun
    | .error fault => .done (.error fault)
    | .ok outcomes =>
        match combine outcomes with
        | .error fault => .done (.error fault)
        | .ok value => next value

theorem countProduct_cons (product : Nat) (node : Node) (rest : List Node) :
    countProduct product (node :: rest) =
      countThen node (Counted.mul product) fun product => countProduct product rest :=
  rfl

theorem countSum_cons (sum : Nat) (node : Node) (rest : List Node) :
    countSum sum (node :: rest) =
      countThen node (Counted.add sum) fun sum => countSum sum rest :=
  rfl

/-- Some trees are counted one after the other, and a checked operation joins their counts. -/
structure JoinsCounts (combine : Nat → Nat → Counted)
    (countEach : Nat → List Node → Recipe Counted) : Prop where
  nil : ∀ result, countEach result [] = .done (.ok result)
  cons : ∀ result node rest, countEach result (node :: rest) =
    countThen node (combine result) fun result => countEach result rest

theorem countProduct_joinsCounts : JoinsCounts Counted.mul countProduct :=
  ⟨fun _ => rfl, countProduct_cons⟩

theorem countSum_joinsCounts : JoinsCounts Counted.add countSum := ⟨fun _ => rfl, countSum_cons⟩

theorem countThen_asksOnly {node : Node} {combine : Nat → Counted}
    {next : Nat → Recipe Counted} (asks : node.count.AsksOnly allowed)
    (asksLater : ∀ value, (next value).AsksOnly allowed) :
    (countThen node combine next).AsksOnly allowed := by
  refine asks.bind fun counted => ?_
  cases counted with
  | error fault => trivial
  | ok outcomes =>
      cases combined : combine outcomes with
      | error fault =>
          simp only [combined]
          trivial
      | ok value =>
          simp only [combined]
          exact asksLater value

theorem JoinsCounts.asksOnly {combine : Nat → Nat → Counted}
    {countEach : Nat → List Node → Recipe Counted} (joins : JoinsCounts combine countEach)
    {nodes : List Node} (each : ∀ node ∈ nodes, node.count.AsksOnly allowed) (result : Nat) :
    (countEach result nodes).AsksOnly allowed := by
  induction nodes generalizing result with
  | nil =>
      rw [joins.nil]
      trivial
  | cons node rest ih =>
      obtain ⟨first, later⟩ := List.forall_mem_cons.mp each
      rw [joins.cons]
      exact countThen_asksOnly first (ih later)

/-- The operands of every flat permutation ask only what is allowed. -/
def SamplesOnly (allowed : Question → Prop) (node : Node) : Prop :=
  ∀ operands, node = .permutation operands → (∀ operand ∈ operands, operand.IsFlat) →
    ∀ operand ∈ operands, ∀ question, operand.Asks question → allowed question

theorem count_asksOnly {tree : Node} (samples : tree.Every (SamplesOnly allowed)) :
    tree.count.AsksOnly allowed := by
  induction tree using treeInduction with
  | step tree ih =>
      obtain ⟨root, below⟩ := every_iff.mp samples
      have each : ∀ node ∈ tree.subnodes, node.count.AsksOnly allowed :=
        fun node member => ih node member (below node member)
      cases tree with
      | literal text => trivial
      | characterSet members repetition => trivial
      | sequence children => exact countProduct_joinsCounts.asksOnly each 1
      | alternation operands => exact countSum_joinsCounts.asksOnly each 0
      | permutation operands =>
          rw [count]
          split
          · trivial
          · next noFault =>
              have flat := operandFault?_eq_none_iff.mp noFault
              refine (concatBehind_asksOnly ?_ []).bind fun sample => trivial
              rw [renderEach_eq_map]
              intro recipe member
              obtain ⟨operand, inOperands, rfl⟩ := List.mem_map.mp member
              exact render_asksOnly (every_of_isFlat (flat operand inOperands)
                (root operands rfl flat operand inOperands))
      | reference name => trivial

/-- A literal or a set asks for no name. -/
theorem Asks.isDraw {node : Node} {question : Question} (asks : node.Asks question)
    (flat : node.IsFlat) : question.IsDraw := by
  rintro name rfl
  cases asks.eq_reference
  exact flat

/-- Counting asks for no name. -/
theorem count_isDraw (tree : Node) : tree.count.AsksOnly Question.IsDraw := by
  apply count_asksOnly
  apply every_of_forall
  intro node operands _ flat operand member question asks
  exact asks.isDraw (flat operand member)

end Node

end TextTemplate
