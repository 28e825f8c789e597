import TextTemplate.Text.WordSize
import TextTemplate.Tree.Node

/-!
# Conditions on all nodes of a tree

Which questions a rendering may ask, and which trees can be counted, is decided by conditions
that every node of a tree meets on its own.
-/

namespace TextTemplate

namespace Node

/-- The nodes directly below a node. -/
def subnodes : Node → List Node
  | .literal _ => []
  | .characterSet _ _ => []
  | .sequence children => children
  | .alternation operands => operands
  | .permutation operands => operands
  | .reference _ => []

/-- What holds of a node once it holds of the nodes directly below it holds of all trees. -/
@[elab_as_elim]
theorem treeInduction {motive : Node → Prop} (tree : Node)
    (step : ∀ node, (∀ child ∈ node.subnodes, motive child) → motive node) : motive tree := by
  refine @Node.rec motive (fun nodes => ∀ node ∈ nodes, motive node)
    (fun text => step (.literal text) (by simp [subnodes]))
    (fun members repetition => step (.characterSet members repetition) (by simp [subnodes]))
    (fun children => step (.sequence children))
    (fun operands => step (.alternation operands))
    (fun operands => step (.permutation operands))
    (fun name => step (.reference name) (by simp [subnodes])) ?_ ?_ tree
  · intro node member
    cases member
  · intro first rest holds holdsRest node member
    rcases List.mem_cons.mp member with rfl | member
    · exact holds
    · exact holdsRest node member

mutual

/-- A condition holds of every node of a tree. -/
def Every (condition : Node → Prop) : Node → Prop
  | .literal text => condition (.literal text)
  | .characterSet members repetition => condition (.characterSet members repetition)
  | .sequence children => condition (.sequence children) ∧ EveryAmong condition children
  | .alternation operands => condition (.alternation operands) ∧ EveryAmong condition operands
  | .permutation operands => condition (.permutation operands) ∧ EveryAmong condition operands
  | .reference name => condition (.reference name)

def EveryAmong (condition : Node → Prop) : List Node → Prop
  | [] => True
  | node :: rest => Every condition node ∧ EveryAmong condition rest

end

variable {condition : Node → Prop}

theorem everyAmong_iff {nodes : List Node} :
    EveryAmong condition nodes ↔ ∀ node ∈ nodes, node.Every condition := by
  induction nodes with
  | nil => simp [EveryAmong]
  | cons node rest ih => simp [EveryAmong, ih]

/-- A condition holds of every node when it holds of the root and of every node below. -/
theorem every_iff {tree : Node} :
    tree.Every condition ↔ condition tree ∧ ∀ child ∈ tree.subnodes, child.Every condition := by
  cases tree <;> simp [Every, subnodes, everyAmong_iff]

/-- A condition that holds of the root, but not of every node, fails below the root. -/
theorem exists_subnode_of_not_every {tree : Node} (fails : ¬ tree.Every condition)
    (root : condition tree) : ∃ child ∈ tree.subnodes, ¬ child.Every condition := by
  rw [every_iff] at fails
  simpa [root] using fails

theorem every_of_forall (holds : ∀ node, condition node) (tree : Node) :
    tree.Every condition := by
  induction tree using treeInduction with
  | step tree ih => exact every_iff.mpr ⟨holds tree, ih⟩

theorem Every.imp {weaker : Node → Prop} {tree : Node}
    (weakens : ∀ node, condition node → weaker node) (holds : tree.Every condition) :
    tree.Every weaker := by
  induction tree using treeInduction with
  | step tree ih =>
      obtain ⟨root, below⟩ := every_iff.mp holds
      apply every_iff.mpr
      refine ⟨weakens tree root, ?_⟩
      intro child member
      exact ih child member (below child member)

theorem Every.and {second : Node → Prop} {tree : Node} (holds : tree.Every condition)
    (holdsSecond : tree.Every second) :
    tree.Every fun node => condition node ∧ second node := by
  induction tree using treeInduction with
  | step tree ih =>
      obtain ⟨root, below⟩ := every_iff.mp holds
      obtain ⟨rootSecond, belowSecond⟩ := every_iff.mp holdsSecond
      apply every_iff.mpr
      refine ⟨⟨root, rootSecond⟩, ?_⟩
      intro child member
      exact ih child member (below child member) (belowSecond child member)

end Node

/-! ## Trees that can be rendered and counted -/

/-- The bounds of a repetition stand in order and are words. -/
def Repetition.IsOrdered : Repetition → Prop
  | .exactly _ => True
  | .between low high => low ≤ high ∧ high < wordSize

/-- The numbers of a repetition are words. -/
def Repetition.IsInWords : Repetition → Prop
  | .exactly count => count < wordSize
  | .between low high => low < wordSize ∧ high < wordSize

theorem Repetition.IsOrdered.low_le_high {repetition : Repetition}
    (ordered : repetition.IsOrdered) : repetition.low ≤ repetition.high := by
  cases repetition with
  | exactly count => exact Nat.le_refl count
  | between low high => exact ordered.1

/-- A repetition allows for no more lengths than there are words. -/
theorem Repetition.IsOrdered.sub_lt_wordSize {repetition : Repetition}
    (ordered : repetition.IsOrdered) : repetition.high - repetition.low < wordSize := by
  cases repetition with
  | exactly count =>
      simp only [Repetition.low, Repetition.high, Nat.sub_self]
      decide
  | between low high => exact Nat.lt_of_le_of_lt (Nat.sub_le high low) ordered.2

namespace Node

/-- The repetition of a set is ordered; other nodes have none. -/
def RepeatsInOrder : Node → Prop
  | .characterSet _ repetition => repetition.IsOrdered
  | _ => True

/-- Every repetition in a tree is ordered. -/
def IsOrdered (tree : Node) : Prop := tree.Every RepeatsInOrder

/-- The numbers in a tree are words. -/
def HasWords (tree : Node) : Prop :=
  tree.Every fun node => ∀ members repetition, node = .characterSet members repetition →
    repetition.IsInWords

/-- What a node holds is counted by words. -/
def HoldsWords : Node → Prop
  | .literal text => text.length < wordSize
  | .characterSet members repetition => members.length < wordSize ∧ repetition.IsInWords
  | .sequence children => children.length < wordSize
  | .alternation operands => operands.length < wordSize
  | .permutation operands => operands.length < wordSize
  | .reference name => name.length < wordSize

/-- A tree that a memory addressed by words can hold. -/
def IsStorable (tree : Node) : Prop := tree.Every HoldsWords

/-- No permutation stands anywhere in a tree. -/
def IsPermutationFree (tree : Node) : Prop :=
  tree.Every fun node => ∀ operands, node ≠ .permutation operands

/-- A tree has no reference exactly when none of its nodes is one. -/
theorem hasReference_eq_false_iff {tree : Node} :
    tree.hasReference = false ↔ tree.Every fun node => ∀ name, node ≠ .reference name := by
  have among : ∀ nodes : List Node,
      hasReferenceAny nodes = false ↔ ∀ node ∈ nodes, node.hasReference = false := by
    intro nodes
    induction nodes with
    | nil => simp [hasReferenceAny]
    | cons node rest ih => simp [hasReferenceAny, ih]
  induction tree using treeInduction with
  | step tree ih =>
      rw [every_iff, ← forall₂_congr ih]
      cases tree <;> simp [hasReference, subnodes, among]

end Node

end TextTemplate
