/-!
# Render trees

A pattern is read once into a tree of nodes.  Texts, members and names are lists of code
points.
-/

namespace TextTemplate

/-- How many characters a character set contributes. -/
inductive Repetition where
  /-- Always the same number. -/
  | exactly (count : Nat)
  /-- Any number from `low` to `high`. -/
  | between (low high : Nat)
deriving DecidableEq, Repr

namespace Repetition

/-- One character, the repetition of a set that names none. -/
def once : Repetition := .exactly 1

def low : Repetition → Nat
  | .exactly count => count
  | .between low _ => low

def high : Repetition → Nat
  | .exactly count => count
  | .between _ high => high

end Repetition

/-- A node of a render tree. -/
inductive Node where
  /-- Fixed text. -/
  | literal (text : List Char)
  /-- Characters drawn with replacement; a repeated member is drawn more often. -/
  | characterSet (members : List Char) (repetition : Repetition)
  /-- All children, one after the other. -/
  | sequence (children : List Node)
  /-- One of the operands. -/
  | alternation (operands : List Node)
  /-- The characters of all operands, shuffled together. -/
  | permutation (operands : List Node)
  /-- A value that the caller binds to a name. -/
  | reference (name : List Char)
deriving Repr

/-- The two operators that join neighbouring nodes. -/
inductive Operator where
  | alternate
  | permute
deriving DecidableEq, Repr

namespace Operator

/-- The character that stands for an operator. -/
def symbol : Operator → Char
  | .alternate => '|'
  | .permute => '&'

/-- The operator that a character stands for. -/
def ofSymbol? : Char → Option Operator
  | '|' => some .alternate
  | '&' => some .permute
  | _ => none

@[simp]
theorem ofSymbol?_symbol (operator : Operator) :
    ofSymbol? operator.symbol = some operator := by
  cases operator <;> rfl

/-- The node for a run of operands; a lone operand stands for itself. -/
def combine (operator : Operator) : List Node → Node
  | [operand] => operand
  | operands =>
      match operator with
      | .alternate => .alternation operands
      | .permute => .permutation operands

end Operator

namespace Node

mutual

/-- How many nodes a tree has, its root included. -/
def nodeCount : Node → Nat
  | .literal _ => 1
  | .characterSet _ _ => 1
  | .sequence children => 1 + nodeCountAll children
  | .alternation operands => 1 + nodeCountAll operands
  | .permutation operands => 1 + nodeCountAll operands
  | .reference _ => 1

def nodeCountAll : List Node → Nat
  | [] => 0
  | node :: rest => nodeCount node + nodeCountAll rest

end

mutual

/-- Whether a reference stands anywhere in a tree. -/
def hasReference : Node → Bool
  | .literal _ => false
  | .characterSet _ _ => false
  | .sequence children => hasReferenceAny children
  | .alternation operands => hasReferenceAny operands
  | .permutation operands => hasReferenceAny operands
  | .reference _ => true

def hasReferenceAny : List Node → Bool
  | [] => false
  | node :: rest => hasReference node || hasReferenceAny rest

end

mutual

/-- Equality of trees, decided node by node. -/
def decEq : (first second : Node) → Decidable (first = second)
  | .literal text, .literal text' => decidable_of_iff (text = text') (by simp)
  | .characterSet members repetition, .characterSet members' repetition' =>
      decidable_of_iff (members = members' ∧ repetition = repetition') (by simp)
  | .sequence children, .sequence children' =>
      @decidable_of_iff _ _ (by simp) (decEqAll children children')
  | .alternation operands, .alternation operands' =>
      @decidable_of_iff _ _ (by simp) (decEqAll operands operands')
  | .permutation operands, .permutation operands' =>
      @decidable_of_iff _ _ (by simp) (decEqAll operands operands')
  | .reference name, .reference name' => decidable_of_iff (name = name') (by simp)
  | .literal _, .characterSet _ _ | .literal _, .sequence _ | .literal _, .alternation _
  | .literal _, .permutation _ | .literal _, .reference _ => isFalse (by simp)
  | .characterSet _ _, .literal _ | .characterSet _ _, .sequence _
  | .characterSet _ _, .alternation _ | .characterSet _ _, .permutation _
  | .characterSet _ _, .reference _ => isFalse (by simp)
  | .sequence _, .literal _ | .sequence _, .characterSet _ _ | .sequence _, .alternation _
  | .sequence _, .permutation _ | .sequence _, .reference _ => isFalse (by simp)
  | .alternation _, .literal _ | .alternation _, .characterSet _ _
  | .alternation _, .sequence _ | .alternation _, .permutation _
  | .alternation _, .reference _ => isFalse (by simp)
  | .permutation _, .literal _ | .permutation _, .characterSet _ _
  | .permutation _, .sequence _ | .permutation _, .alternation _
  | .permutation _, .reference _ => isFalse (by simp)
  | .reference _, .literal _ | .reference _, .characterSet _ _ | .reference _, .sequence _
  | .reference _, .alternation _ | .reference _, .permutation _ => isFalse (by simp)

def decEqAll : (first second : List Node) → Decidable (first = second)
  | [], [] => isTrue rfl
  | [], _ :: _ => isFalse (by simp)
  | _ :: _, [] => isFalse (by simp)
  | node :: rest, node' :: rest' =>
      match decEq node node', decEqAll rest rest' with
      | isTrue same, isTrue sameRest => isTrue (by simp [same, sameRest])
      | isFalse differ, _ => isFalse (by simp [differ])
      | _, isFalse differ => isFalse (by simp [differ])

end

instance : DecidableEq Node := decEq

end Node

end TextTemplate
