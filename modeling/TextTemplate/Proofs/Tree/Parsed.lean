import TextTemplate.Proofs.Pattern.NormalForm
import TextTemplate.Proofs.Tree.Every

/-!
# Nodes in the trees of patterns

Normal form asks more of a tree than what its nodes meet one by one.  What they meet is enough
for rendering and counting.
-/

namespace TextTemplate

theorem Repetition.isOrdered_of_isNormal {limits : Limits} {repetition : Repetition}
    (normal : repetition.isNormal limits = true) : repetition.IsOrdered := by
  cases repetition with
  | exactly count => trivial
  | between low high =>
      simp only [Repetition.isNormal, Bool.and_eq_true, decide_eq_true_eq] at normal
      exact ⟨normal.1.1, normal.2⟩

namespace Node

/-- A node that a pattern can describe, whatever stands below it. -/
def IsProper : Node → Prop
  | .literal text => text ≠ []
  | .characterSet members repetition => members ≠ [] ∧ repetition.IsOrdered
  | .sequence _ => True
  | .alternation operands => 2 ≤ operands.length
  | .permutation operands => 2 ≤ operands.length
  | .reference name => isIdentifier name = true

theorem IsProper.repeatsInOrder {node : Node} (proper : node.IsProper) :
    node.RepeatsInOrder := by
  cases node with
  | characterSet members repetition => exact proper.2
  | literal text => trivial
  | sequence children => trivial
  | alternation operands => trivial
  | permutation operands => trivial
  | reference name => trivial

theorem areNormalItems_iff {limits : Limits} {levels : Nat} {nodes : List Node} :
    areNormalItems limits levels nodes = true ↔
      ∀ node ∈ nodes, node.isNormalItem limits levels = true := by
  induction nodes with
  | nil => simp [areNormalItems]
  | cons node rest ih => simp [areNormalItems, ih]

theorem two_le_length_of_operandsApart {operator : Operator} {operands : List Node}
    (apart : operandsApart operator operands = true) : 2 ≤ operands.length := by
  obtain ⟨first, second, rest, rfl, -⟩ := operandsApart_iff.mp apart
  exact Nat.le_add_left 2 rest.length

theorem every_isProper_of_isNormalItem {limits : Limits} {levels : Nat} {node : Node}
    (normal : node.isNormalItem limits levels = true) : node.Every IsProper := by
  induction node using treeInduction generalizing levels with
  | step node ih =>
      have inside : ∀ {levels}, areNormalItems limits levels node.subnodes = true →
          ∀ child ∈ node.subnodes, child.Every IsProper :=
        fun areNormal child member =>
          ih child member (areNormalItems_iff.mp areNormal child member)
      cases node with
      | literal text =>
          rintro rfl
          cases normal
      | characterSet members repetition =>
          simp only [isNormalItem, Bool.and_eq_true] at normal
          exact ⟨by simpa using normal.1, Repetition.isOrdered_of_isNormal normal.2⟩
      | sequence children =>
          cases levels with
          | zero => cases normal
          | succ levels =>
              simp only [isNormalItem, Bool.and_eq_true] at normal
              exact every_iff.mpr ⟨trivial, inside normal.2⟩
      | alternation operands =>
          simp only [isNormalItem, Bool.and_eq_true] at normal
          exact every_iff.mpr ⟨two_le_length_of_operandsApart normal.1, inside normal.2⟩
      | permutation operands =>
          simp only [isNormalItem, Bool.and_eq_true] at normal
          exact every_iff.mpr ⟨two_le_length_of_operandsApart normal.1, inside normal.2⟩
      | reference name => exact normal

/-- Every node of a tree that was read is proper. -/
theorem every_isProper_of_parse {limits : Limits} {pattern : List Char} {tree : Node}
    (read : parse limits pattern = .ok tree) : tree.Every IsProper := by
  have normal := isNormal_of_parse read
  cases tree with
  | sequence children =>
      rw [isNormal] at normal
      exact every_isProper_of_isNormalItem normal
  | literal text => cases normal
  | characterSet members repetition => cases normal
  | alternation operands => cases normal
  | permutation operands => cases normal
  | reference name => cases normal

end Node

end TextTemplate
