import Mathlib.Data.List.Destutter
import TextTemplate.Proofs.Pattern.NormalForm
import TextTemplate.Proofs.Pattern.RoundTrip
import TextTemplate.Proofs.Tree.Every

/-!
# How high trees grow

The limit on groups does not limit the height of a tree: every switch from one operator to the
other puts the run so far one level deeper.  Groups and switches together account for the
height, however long the pattern is.
-/

namespace TextTemplate

namespace Node

mutual

/-- How many nodes the longest path from the root to a leaf has. -/
def height : Node → Nat
  | .literal _ => 1
  | .characterSet _ _ => 1
  | .sequence children => heightAmong children + 1
  | .alternation operands => heightAmong operands + 1
  | .permutation operands => heightAmong operands + 1
  | .reference _ => 1

/-- The height of the highest one of some trees. -/
def heightAmong : List Node → Nat
  | [] => 0
  | node :: rest => max (height node) (heightAmong rest)

end

theorem heightAmong_le_iff {nodes : List Node} {bound : Nat} :
    heightAmong nodes ≤ bound ↔ ∀ node ∈ nodes, node.height ≤ bound := by
  induction nodes with
  | nil => simp [heightAmong]
  | cons node rest ih => rw [heightAmong, Nat.max_le, ih, List.forall_mem_cons]

theorem height_combine_le (operator : Operator) {operands : List Node} {bound : Nat}
    (within : ∀ operand ∈ operands, operand.height ≤ bound) :
    (operator.combine operands).height ≤ bound + 1 := by
  have highest := heightAmong_le_iff.mpr within
  match operands with
  | [] => cases operator <;> exact Nat.succ_le_succ (Nat.zero_le _)
  | [operand] => exact Nat.le_succ_of_le (within operand List.mem_cons_self)
  | _ :: _ :: _ => cases operator <;> exact Nat.succ_le_succ highest

theorem IsLeaf.height_eq {limits : Limits} {node : Node} (leaf : node.IsLeaf limits) :
    node.height = 1 := by
  cases leaf <;> rfl

end Node

/-! ## Runs of operators -/

namespace Operator

/-- How many runs of one and the same operator a list of operators has. -/
def runs (operators : List Operator) : Nat := (operators.destutter (· ≠ ·)).length

theorem runs_mono {operators more : List Operator} (sublist : operators.Sublist more) :
    runs operators ≤ runs more :=
  (List.isChain_destutter _ operators).length_le_length_destutter_ne
    ((List.destutter_sublist _ operators).trans sublist)

/-- The same operator goes on with the run. -/
theorem runs_cons_self (operator : Operator) (rest : List Operator) :
    runs (operator :: operator :: rest) = runs (operator :: rest) := by
  simp [runs, List.destutter_cons']

/-- Another operator begins a run. -/
theorem runs_cons_of_ne {operator next : Operator} (differ : next ≠ operator)
    (rest : List Operator) : runs (operator :: next :: rest) = runs (next :: rest) + 1 := by
  simp [runs, List.destutter_cons', differ.symm]

end Operator

namespace Token

def operator? : Token → Option Operator
  | .operator joining => some joining
  | _ => none

/-- The operators among some tokens, at whatever depth they stand. -/
def operators (tokens : List Token) : List Operator := tokens.filterMap operator?

@[simp]
theorem operators_leaf (node : Node) (rest : List Token) :
    operators (.leaf node :: rest) = operators rest :=
  rfl

@[simp]
theorem operators_operator (joining : Operator) (rest : List Token) :
    operators (.operator joining :: rest) = joining :: operators rest :=
  rfl

@[simp]
theorem operators_append (tokens more : List Token) :
    operators (tokens ++ more) = operators tokens ++ operators more :=
  List.filterMap_append

end Token

/-- How many runs of the same character the operator characters of a pattern have. -/
def operatorRuns (pattern : List Char) : Nat :=
  Operator.runs (pattern.filterMap Operator.ofSymbol?)

/-- Every operator among the tokens of a pattern is a character of it. -/
theorem WritesTokens.operators_sublist {limits : Limits} {written : List Char}
    {tokens : List Token} (writes : WritesTokens limits written tokens) :
    (Token.operators tokens).Sublist (written.filterMap Operator.ofSymbol?) := by
  induction writes with
  | nil => exact .slnil
  | literal writes notEmpty ends later ih =>
      rw [Token.operators_leaf, List.filterMap_append]
      exact ih.trans (List.sublist_append_right _ _)
  | characterSet writes notEmpty repeats later ih =>
      rw [Token.operators_leaf, List.filterMap_append]
      exact ih.trans (List.sublist_append_right _ _)
  | @reference name rest _ unbraced valid later ih =>
      rw [Token.operators_leaf, List.append_cons, List.filterMap_append]
      exact ih.trans (List.sublist_append_right _ _)
  | openGroup later ih => exact ih
  | closeGroup later ih => exact ih
  | @operator rest tokens operator later ih =>
      rw [Token.operators_operator,
        List.filterMap_cons_some (Operator.ofSymbol?_symbol operator)]
      exact ih.cons_cons operator

/-! ## Heights along a derivation -/

section Runs

variable {bound : Nat}

theorem height_extendRun_le {operator : Operator} {operands : List Node}
    {joined : List (Operator × Node)} (within : ∀ operand ∈ operands, operand.height ≤ bound)
    (items : ∀ operand ∈ joined, operand.2.height ≤ bound) :
    (extendRun operator operands joined).height ≤
      bound + Operator.runs (operator :: joined.map Prod.fst) := by
  induction joined generalizing operator operands bound with
  | nil => exact Node.height_combine_le operator within
  | cons operand rest ih =>
      rcases operand with ⟨next, node⟩
      obtain ⟨item, later⟩ := List.forall_mem_cons.mp items
      rw [extendRun, List.map_cons]
      split
      · next same =>
          subst same
          rw [Operator.runs_cons_self]
          refine ih ?_ later
          simpa [or_imp, forall_and] using ⟨within, item⟩
      · next switches =>
          -- The run so far becomes one operand, which is one level higher than its own.
          rw [Operator.runs_cons_of_ne switches, ← Nat.add_assoc, Nat.add_right_comm]
          refine ih ?_ fun operand member => Nat.le_succ_of_le (later operand member)
          simpa using ⟨Node.height_combine_le operator within, Nat.le_succ_of_le item⟩

theorem height_chainNode_le {first : Node} {joined : List (Operator × Node)}
    (begins : first.height ≤ bound) (items : ∀ operand ∈ joined, operand.2.height ≤ bound) :
    (chainNode first joined).height ≤ bound + Operator.runs (joined.map Prod.fst) := by
  cases joined with
  | nil => exact begins
  | cons operand rest =>
      rcases operand with ⟨operator, second⟩
      obtain ⟨item, later⟩ := List.forall_mem_cons.mp items
      exact height_extendRun_le (by simpa using ⟨begins, item⟩) later

end Runs

/-- The operators of a chain are among those of its tokens. -/
theorem JoinedTokens.operators_sublist {limits : Limits} {depth : Nat} {tokens : List Token}
    {joined : List (Operator × Node)} :
    JoinedTokens limits depth tokens joined →
      (joined.map Prod.fst).Sublist (Token.operators tokens)
  | .nil => .slnil
  | .cons operator operand rest => by
      rw [List.cons_append, Token.operators_operator, Token.operators_append]
      exact (rest.operators_sublist.trans (List.sublist_append_right _ _)).cons_cons operator

/-- Tokens with leaves of height one, and with so few runs of operators. -/
structure AreLowTokens (runs : Nat) (tokens : List Token) : Prop where
  leaves : ∀ node, .leaf node ∈ tokens → node.height = 1
  fewRuns : Operator.runs (Token.operators tokens) ≤ runs

namespace AreLowTokens

variable {runs : Nat} {before tokens more : List Token}

theorem of_sublist (low : AreLowTokens runs more) (sublist : tokens.Sublist more) :
    AreLowTokens runs tokens where
  leaves node member := low.leaves node (sublist.subset member)
  fewRuns := Nat.le_trans (Operator.runs_mono (sublist.filterMap _)) low.fewRuns

theorem left (low : AreLowTokens runs (tokens ++ more)) : AreLowTokens runs tokens :=
  low.of_sublist (List.sublist_append_left tokens more)

theorem right (low : AreLowTokens runs (before ++ tokens)) : AreLowTokens runs tokens :=
  low.of_sublist (List.sublist_append_right before tokens)

theorem tail {token : Token} (low : AreLowTokens runs (token :: tokens)) :
    AreLowTokens runs tokens :=
  low.of_sublist (List.sublist_cons_self token tokens)

end AreLowTokens

/-- How high an item may be with so many levels of groups below it and runs in every chain. -/
def itemHeight (levels runs : Nat) : Nat := levels * (runs + 1) + 1

theorem itemHeight_succ (levels runs : Nat) :
    itemHeight (levels + 1) runs = itemHeight levels runs + runs + 1 := by
  rw [itemHeight, itemHeight, Nat.succ_mul]
  omega

mutual

theorem ItemTokens.height_le {limits : Limits} {depth runs : Nat} {tokens : List Token}
    {node : Node} :
    ItemTokens limits depth tokens node → AreLowTokens runs tokens →
      node.height ≤ itemHeight (limits.maxDepth - depth) runs
  | .leaf node, low => by
      rw [low.leaves node List.mem_cons_self]
      exact Nat.succ_le_succ (Nat.zero_le _)
  | @ItemTokens.group _ _ tokens nodes allowed inner, low => by
      have level : limits.maxDepth - depth = limits.maxDepth - (depth + 1) + 1 := by omega
      rw [level, itemHeight_succ]
      have inside : AreLowTokens runs tokens := low.tail.left
      exact Nat.succ_le_succ (Node.heightAmong_le_iff.mpr (inner.heights_le inside))

theorem JoinedTokens.heights_le {limits : Limits} {depth runs : Nat} {tokens : List Token}
    {joined : List (Operator × Node)} :
    JoinedTokens limits depth tokens joined → AreLowTokens runs tokens →
      ∀ operand ∈ joined, operand.2.height ≤ itemHeight (limits.maxDepth - depth) runs
  | .nil, _ => by simp
  | @JoinedTokens.cons _ _ item later node joined operator operand rest, low => by
      have ofItem : AreLowTokens runs item := low.tail.left
      have ofRest : AreLowTokens runs later := low.tail.right
      exact List.forall_mem_cons.mpr ⟨operand.height_le ofItem, rest.heights_le ofRest⟩

theorem SequenceTokens.heights_le {limits : Limits} {depth runs : Nat} {tokens : List Token}
    {nodes : List Node} :
    SequenceTokens limits depth tokens nodes → AreLowTokens runs tokens →
      ∀ node ∈ nodes, node.height ≤ itemHeight (limits.maxDepth - depth) runs + runs
  | .nil, _ => by simp
  | @SequenceTokens.chain _ _ item others later first joined nodes begins goesOn rest, low => by
      have ofItem : AreLowTokens runs item := low.left.left
      have ofOthers : AreLowTokens runs others := low.left.right
      have ofRest : AreLowTokens runs later := low.right
      refine List.forall_mem_cons.mpr ⟨?_, rest.heights_le ofRest⟩
      have high := height_chainNode_le (begins.height_le ofItem) (goesOn.heights_le ofOthers)
      have few := Nat.le_trans (Operator.runs_mono goesOn.operators_sublist) ofOthers.fewRuns
      exact Nat.le_trans high (Nat.add_le_add_left few _)

end

/--
Groups and operators bound the height of a tree: as many levels of groups as the limits allow,
and in each of them no more operator nodes below one another than the pattern has runs of
operator characters.
-/
theorem Node.height_le_of_parse {limits : Limits} {pattern : List Char} {tree : Node}
    (read : parse limits pattern = .ok tree) :
    tree.height ≤ (limits.maxDepth + 1) * (operatorRuns pattern + 1) + 1 := by
  obtain ⟨tokens, nodes, writes, derives, rfl⟩ := parse_eq_ok_iff_describes.mp read
  have low : AreLowTokens (operatorRuns pattern) tokens :=
    ⟨fun node member => (writes.leaves node member).height_eq,
      Operator.runs_mono writes.operators_sublist⟩
  have high := Nat.succ_le_succ (heightAmong_le_iff.mpr (derives.heights_le low))
  have level := itemHeight_succ limits.maxDepth (operatorRuns pattern)
  rw [Nat.sub_zero] at high
  rw [itemHeight] at level
  rw [height]
  omega

/-- Two runs of operators inside a group are within the bound of one level and two runs. -/
theorem Node.height_le_of_switch_in_group :
    let limits : Limits := { maxDepth := 1 }
    let letter : Node := .literal ['a']
    let tree : Node := .sequence [.sequence [.permutation [.alternation [letter, letter], letter]]]
    parse limits "(a|a&a)".toList = .ok tree ∧ tree.height = 5 ∧
      tree.height ≤ (limits.maxDepth + 1) * (operatorRuns "(a|a&a)".toList + 1) + 1 := by
  intro limits letter tree
  have read : parse limits "(a|a&a)".toList = .ok tree := by decide +kernel
  exact ⟨read, by decide, Node.height_le_of_parse read⟩

/-! ## Operators alone grow any height -/

namespace Node

/-- A chain of letters in which the operator changes at every step. -/
def switching : Nat → Node
  | 0 => .literal ['a']
  | steps + 1 => .permutation [.alternation [switching steps, .literal ['a']], .literal ['a']]

theorem height_switching (steps : Nat) : (switching steps).height = 2 * steps + 1 := by
  induction steps with
  | zero => rfl
  | succ steps ih =>
      simp only [switching, height, heightAmong, ih]
      omega

theorem isNormalItem_switching (limits : Limits) (levels steps : Nat) :
    (switching steps).isNormalItem limits levels = true := by
  induction steps with
  | zero => rfl
  | succ steps ih =>
      have apart : operandsApart .alternate [switching steps, .literal ['a']] = true := by
        cases steps <;> rfl
      have apartAbove : ∀ operands : List Node,
          operandsApart .permute [.alternation operands, .literal ['a']] = true :=
        fun _ => rfl
      simp [switching, isNormalItem, areNormalItems, ih, apart, apartAbove]

/-- Patterns without a single group are read to trees of any height. -/
theorem exists_parse_of_height (limits : Limits) (steps : Nat) :
    ∃ pattern tree, parse limits pattern = .ok tree ∧ steps < tree.height := by
  have normal : (sequence [switching steps]).isNormal limits = true := by
    simp [isNormal, isNormalItem, areNormalItems, literalsApart, isNormalItem_switching]
  refine ⟨_, _, parse_toPattern normal, ?_⟩
  simp only [height, heightAmong, height_switching]
  omega

/-- The limit on groups alone bounds no height. -/
theorem not_exists_height_bound :
    ¬ ∃ bound : Nat → Nat, ∀ limits pattern tree,
      parse limits pattern = .ok tree → tree.height ≤ bound limits.maxDepth := by
  rintro ⟨bound, holds⟩
  obtain ⟨pattern, tree, read, high⟩ := exists_parse_of_height {} (bound 1000)
  exact Nat.not_lt_of_le (holds {} pattern tree read) high

end Node

end TextTemplate
