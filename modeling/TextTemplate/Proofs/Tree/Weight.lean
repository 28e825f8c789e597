import Mathlib.Algebra.BigOperators.Ring.List
import Mathlib.Algebra.Ring.Nat
import TextTemplate.Proofs.Pattern.Acceptance
import TextTemplate.Proofs.Pattern.Intervals
import TextTemplate.Proofs.Tree.Every

/-!
# How large trees grow

Whatever a tree holds is paid for by the characters of its pattern.  Every token pays for the
nodes that it makes necessary: a leaf for itself, a pair of parentheses for a sequence, and an
operator for the node that joins its operands.
-/

namespace TextTemplate

namespace Node

mutual

/-- All nodes of a tree, the root first and every node before those below it. -/
def nodes : Node → List Node
  | .literal text => [.literal text]
  | .characterSet members repetition => [.characterSet members repetition]
  | .sequence children => .sequence children :: nodesAmong children
  | .alternation operands => .alternation operands :: nodesAmong operands
  | .permutation operands => .permutation operands :: nodesAmong operands
  | .reference name => [.reference name]

def nodesAmong : List Node → List Node
  | [] => []
  | node :: rest => nodes node ++ nodesAmong rest

end

theorem nodesAmong_eq_flatMap (trees : List Node) : nodesAmong trees = trees.flatMap nodes := by
  induction trees with
  | nil => rfl
  | cons tree rest ih => rw [nodesAmong, ih, List.flatMap_cons]

theorem nodes_eq_cons (tree : Node) : tree.nodes = tree :: tree.subnodes.flatMap nodes := by
  cases tree <;> simp [nodes, subnodes, nodesAmong_eq_flatMap]

theorem nodeCountAll_eq_sum (trees : List Node) :
    nodeCountAll trees = (trees.map nodeCount).sum := by
  induction trees with
  | nil => rfl
  | cons tree rest ih => rw [nodeCountAll, ih, List.map_cons, List.sum_cons]

theorem length_nodes (tree : Node) : tree.nodes.length = tree.nodeCount := by
  induction tree using treeInduction with
  | step tree ih =>
      have below : tree.subnodes.map (fun node => node.nodes.length) =
          tree.subnodes.map nodeCount := List.map_congr_left ih
      rw [nodes_eq_cons, List.length_cons, List.length_flatMap, below]
      cases tree <;> simp [subnodes, nodeCount, nodeCountAll_eq_sum, Nat.add_comm]

/-! ## Weights -/

/-- The sum of what the nodes of a tree weigh. -/
def weight (weigh : Node → Nat) (tree : Node) : Nat := (tree.nodes.map weigh).sum

/-- The sum of what some trees weigh. -/
def weightAmong (weigh : Node → Nat) (trees : List Node) : Nat := (trees.map (weight weigh)).sum

section Weights

variable (weigh : Node → Nat)

@[simp]
theorem weightAmong_nil : weightAmong weigh [] = 0 := rfl

@[simp]
theorem weightAmong_cons (tree : Node) (rest : List Node) :
    weightAmong weigh (tree :: rest) = tree.weight weigh + weightAmong weigh rest := by
  simp [weightAmong]

@[simp]
theorem weightAmong_append (trees more : List Node) :
    weightAmong weigh (trees ++ more) = weightAmong weigh trees + weightAmong weigh more := by
  simp [weightAmong]

theorem weight_eq_add (tree : Node) :
    tree.weight weigh = weigh tree + weightAmong weigh tree.subnodes := by
  rw [weight, nodes_eq_cons, List.map_cons, List.sum_cons, List.flatMap_def, List.map_flatten,
    List.sum_flatten, List.map_map, List.map_map]
  rfl

end Weights

/-- How many characters of text or of a name a node holds itself. -/
def textLength : Node → Nat
  | .literal text => text.length
  | .reference name => name.length
  | _ => 0

/-- How many members a node holds itself. -/
def memberCount : Node → Nat
  | .characterSet members _ => members.length
  | _ => 0

end Node

/-! ## What characters pay for -/

/-- Every character that writes a node pays so much of its weight. -/
structure PaysFor (limits : Limits) (rate : Nat) (weigh : Node → Nat) : Prop where
  literal : ∀ {written text : List Char}, WritesLiteral written text → written ≠ [] →
    weigh (.literal text) ≤ rate * written.length
  characterSet : ∀ {written members : List Char} (repetition : Repetition),
    WritesMembers limits written members →
      weigh (.characterSet members repetition) ≤ rate * (written.length + 2)
  reference : ∀ name : List Char, weigh (.reference name) ≤ rate * (name.length + 3)
  sequence : ∀ children, weigh (.sequence children) ≤ rate + rate
  alternation : ∀ operands, weigh (.alternation operands) ≤ rate
  permutation : ∀ operands, weigh (.permutation operands) ≤ rate

/-- What a token has to pay for. -/
def Token.cost (rate : Nat) (weigh : Node → Nat) : Token → Nat
  | .leaf node => node.weight weigh
  | .openGroup => rate
  | .closeGroup => rate
  | .operator _ => rate

/-- What some tokens have to pay for. -/
def tokensCost (rate : Nat) (weigh : Node → Nat) (tokens : List Token) : Nat :=
  (tokens.map (Token.cost rate weigh)).sum

/-- What operators have to pay for, each with the item to its right. -/
def joinedCost (rate : Nat) (weigh : Node → Nat) (joined : List (Operator × Node)) : Nat :=
  (joined.map fun operand => rate + operand.2.weight weigh).sum

section Costs

variable {rate : Nat} {weigh : Node → Nat}

@[simp]
theorem tokensCost_nil : tokensCost rate weigh [] = 0 := rfl

@[simp]
theorem tokensCost_cons (token : Token) (tokens : List Token) :
    tokensCost rate weigh (token :: tokens) =
      token.cost rate weigh + tokensCost rate weigh tokens := by
  simp [tokensCost]

@[simp]
theorem tokensCost_append (tokens more : List Token) :
    tokensCost rate weigh (tokens ++ more) =
      tokensCost rate weigh tokens + tokensCost rate weigh more := by
  simp [tokensCost]

@[simp]
theorem joinedCost_cons (operator : Operator) (node : Node) (rest : List (Operator × Node)) :
    joinedCost rate weigh ((operator, node) :: rest) =
      rate + node.weight weigh + joinedCost rate weigh rest := by
  simp [joinedCost]

/-- What the parts of a text pay for, the whole text pays for. -/
theorem add_le_of_parts {first second own later whole : Nat} (paid : first ≤ rate * own)
    (paidLater : second ≤ rate * later) (parts : own + later ≤ whole) :
    first + second ≤ rate * whole :=
  calc
    first + second ≤ rate * own + rate * later := Nat.add_le_add paid paidLater
    _ = rate * (own + later) := (Nat.mul_add rate own later).symm
    _ ≤ rate * whole := Nat.mul_le_mul_left rate parts

/-- The characters of a pattern pay for its tokens. -/
theorem WritesTokens.tokensCost_le {limits : Limits} {written : List Char} {tokens : List Token}
    (pays : PaysFor limits rate weigh) (writes : WritesTokens limits written tokens) :
    tokensCost rate weigh tokens ≤ rate * written.length := by
  have single : rate ≤ rate * 1 := Nat.le_of_eq (Nat.mul_one rate).symm
  induction writes with
  | nil => exact Nat.zero_le _
  | literal writes notEmpty ends later ih =>
      rw [tokensCost_cons]
      exact add_le_of_parts (pays.literal writes notEmpty) ih (by simp)
  | @characterSet written members quantifier rest repetition _ writes notEmpty repeats later ih =>
      rw [tokensCost_cons]
      refine add_le_of_parts (pays.characterSet repetition writes) ih ?_
      simp only [List.cons_append, List.length_cons, List.length_append]
      omega
  | @reference name rest _ unbraced valid later ih =>
      rw [tokensCost_cons]
      refine add_le_of_parts (pays.reference name) ih ?_
      simp only [List.cons_append, List.length_cons, List.length_append]
      omega
  | openGroup later ih =>
      rw [tokensCost_cons]
      exact add_le_of_parts single ih (by simp [Nat.add_comm])
  | closeGroup later ih =>
      rw [tokensCost_cons]
      exact add_le_of_parts single ih (by simp [Nat.add_comm])
  | operator operator later ih =>
      rw [tokensCost_cons]
      exact add_le_of_parts single ih (by simp [Nat.add_comm])

/-! ## Weights along a derivation -/

open Node

section Joined

variable {limits : Limits} (pays : PaysFor limits rate weigh)

include pays

/-- An operator pays for the node that joins its operands. -/
theorem weight_combine_le (operator : Operator) (operands : List Node) :
    (operator.combine operands).weight weigh ≤ rate + weightAmong weigh operands := by
  have alternation :
      (Node.alternation operands).weight weigh ≤ rate + weightAmong weigh operands :=
    (weight_eq_add weigh _).trans_le (Nat.add_le_add_right (pays.alternation operands) _)
  have permutation :
      (Node.permutation operands).weight weigh ≤ rate + weightAmong weigh operands :=
    (weight_eq_add weigh _).trans_le (Nat.add_le_add_right (pays.permutation operands) _)
  match operands with
  | [operand] =>
      rw [weightAmong_cons]
      exact Nat.le_trans (Nat.le_add_right _ _) (Nat.le_add_left _ _)
  | [] | _ :: _ :: _ =>
      cases operator with
      | alternate => exact alternation
      | permute => exact permutation

theorem weight_extendRun_le (operator : Operator) (operands : List Node)
    (joined : List (Operator × Node)) :
    (extendRun operator operands joined).weight weigh ≤
      rate + weightAmong weigh operands + joinedCost rate weigh joined := by
  induction joined generalizing operator operands with
  | nil => exact weight_combine_le pays operator operands
  | cons operand rest ih =>
      rcases operand with ⟨next, node⟩
      rw [extendRun, joinedCost_cons]
      split
      · have extended := ih operator (operands ++ [node])
        rw [weightAmong_append, weightAmong_cons, weightAmong_nil] at extended
        omega
      · -- The run so far becomes an operand, and its own operator has paid for it.
        have switched := ih next [operator.combine operands, node]
        have combined := weight_combine_le pays operator operands
        rw [weightAmong_cons, weightAmong_cons, weightAmong_nil] at switched
        omega

theorem weight_chainNode_le (first : Node) (joined : List (Operator × Node)) :
    (chainNode first joined).weight weigh ≤
      first.weight weigh + joinedCost rate weigh joined := by
  cases joined with
  | nil => exact Nat.le_refl _
  | cons operand rest =>
      rcases operand with ⟨operator, second⟩
      have extended := weight_extendRun_le pays operator [first, second] rest
      rw [weightAmong_cons, weightAmong_cons, weightAmong_nil] at extended
      rw [chainNode, joinedCost_cons]
      omega

end Joined

mutual

theorem ItemTokens.weight_le {limits : Limits} {depth : Nat} {tokens : List Token} {node : Node}
    (pays : PaysFor limits rate weigh) :
    ItemTokens limits depth tokens node → node.weight weigh ≤ tokensCost rate weigh tokens
  | .leaf node => Nat.le_refl _
  | @ItemTokens.group _ _ tokens nodes allowed inner => by
      have below := inner.weightAmong_le pays
      have own := pays.sequence nodes
      rw [weight_eq_add, subnodes, List.cons_append, tokensCost_cons, tokensCost_append,
        tokensCost_cons, tokensCost_nil, Token.cost, Token.cost]
      omega

theorem JoinedTokens.joinedCost_le {limits : Limits} {depth : Nat} {tokens : List Token}
    {joined : List (Operator × Node)} (pays : PaysFor limits rate weigh) :
    JoinedTokens limits depth tokens joined →
      joinedCost rate weigh joined ≤ tokensCost rate weigh tokens
  | .nil => Nat.le_refl 0
  | @JoinedTokens.cons _ _ item later node joined operator operand rest => by
      have ofItem := operand.weight_le pays
      have ofRest := rest.joinedCost_le pays
      rw [joinedCost_cons, List.cons_append, tokensCost_cons, tokensCost_append, Token.cost]
      omega

theorem SequenceTokens.weightAmong_le {limits : Limits} {depth : Nat} {tokens : List Token}
    {nodes : List Node} (pays : PaysFor limits rate weigh) :
    SequenceTokens limits depth tokens nodes →
      weightAmong weigh nodes ≤ tokensCost rate weigh tokens
  | .nil => Nat.le_refl 0
  | @SequenceTokens.chain _ _ item others later first joined nodes begins goesOn rest => by
      have ofItem := begins.weight_le pays
      have ofOthers := goesOn.joinedCost_le pays
      have ofRest := rest.weightAmong_le pays
      have ofChain := weight_chainNode_le pays first joined
      rw [weightAmong_cons, tokensCost_append, tokensCost_append]
      omega

end

/-- The characters of a pattern pay for its tree, up to the root, which none of them writes. -/
theorem PaysFor.weight_le_of_parse {limits : Limits} {pattern : List Char} {tree : Node}
    (pays : PaysFor limits rate weigh) (read : parse limits pattern = .ok tree) :
    tree.weight weigh ≤ weigh tree + rate * pattern.length := by
  obtain ⟨tokens, nodes, writes, derives, rfl⟩ := parse_eq_ok_iff_describes.mp read
  rw [weight_eq_add]
  refine Nat.add_le_add_left ?_ (weigh (.sequence nodes))
  exact Nat.le_trans (derives.weightAmong_le pays) (writes.tokensCost_le pays)

end Costs

/-! ## Nodes, text and members -/

/-- Escapes are left out of literal text, and nothing is added. -/
theorem WritesLiteral.length_le {written text : List Char} (writes : WritesLiteral written text) :
    text.length ≤ written.length := by
  induction writes with
  | nil => exact Nat.le_refl 0
  | plain ordinary unescaped rest ih => exact Nat.succ_le_succ ih
  | escaped character rest ih => exact Nat.le_succ_of_le (Nat.succ_le_succ ih)

theorem length_escapedMembers_le (escaped : Char) : (escapedMembers escaped).length ≤ 100 := by
  unfold escapedMembers
  split
  · next code _ => exact code.members_length_bounds.2
  · exact Nat.le_add_left 1 99

/-- How many thirds of members a character of a set may stand for. -/
def memberRate (limits : Limits) : Nat := max 150 (limits.maxRangeSpan + 1)

/-- Two characters name a class of a hundred members at most, three characters a range. -/
theorem WritesMembers.length_le {limits : Limits} {written members : List Char}
    (writes : WritesMembers limits written members) :
    3 * members.length ≤ memberRate limits * written.length := by
  have class_le : 150 ≤ memberRate limits := Nat.le_max_left ..
  have range_le : limits.maxRangeSpan + 1 ≤ memberRate limits := Nat.le_max_right ..
  induction writes with
  | nil => exact Nat.le_refl 0
  | escaped character rest ih =>
      have most := length_escapedMembers_le character
      have paid : 3 * (escapedMembers character).length ≤ memberRate limits * 2 := by omega
      rw [List.length_append, Nat.mul_add]
      exact add_le_of_parts paid ih (by simp only [List.length_cons]; omega)
  | @range first second range _ _ firstOrdinary unescaped secondOrdinary expands rest ih =>
      have most := length_expandRange_le expands
      have paid : 3 * range.length ≤ memberRate limits * 3 := by omega
      rw [List.length_append, Nat.mul_add]
      exact add_le_of_parts paid ih (by simp only [List.length_cons]; omega)
  | single ordinary unescaped noRange rest ih =>
      have paid : 3 ≤ memberRate limits * 1 := by omega
      rw [List.length_cons, Nat.mul_succ, Nat.add_comm]
      exact add_le_of_parts paid ih (by simp [Nat.add_comm])

theorem paysFor_node (limits : Limits) : PaysFor limits 1 fun _ => 1 where
  literal _ notEmpty := by
    rw [Nat.one_mul]
    exact List.length_pos_iff.mpr notEmpty
  characterSet _ _ := by omega
  reference _ := by omega
  sequence _ := Nat.le_succ 1
  alternation _ := Nat.le_refl 1
  permutation _ := Nat.le_refl 1

theorem paysFor_text (limits : Limits) : PaysFor limits 1 Node.textLength where
  literal writes _ := by
    rw [Nat.one_mul]
    exact writes.length_le
  characterSet _ _ := Nat.zero_le _
  reference name := by
    rw [Nat.one_mul]
    exact Nat.le_add_right _ 3
  sequence _ := Nat.zero_le _
  alternation _ := Nat.zero_le _
  permutation _ := Nat.zero_le _

theorem paysFor_members (limits : Limits) :
    PaysFor limits (memberRate limits) fun node => 3 * node.memberCount where
  literal _ _ := Nat.zero_le _
  characterSet _ writes :=
    Nat.le_trans writes.length_le (Nat.mul_le_mul_left _ (Nat.le_add_right _ 2))
  reference _ := Nat.zero_le _
  sequence _ := Nat.zero_le _
  alternation _ := Nat.zero_le _
  permutation _ := Nat.zero_le _

/--
A tree has one node more than its pattern has characters at most.  Its texts and names hold
no more characters than the pattern, and its sets only as many members as classes and ranges
can name.
-/
theorem Node.size_le_of_parse {limits : Limits} {pattern : List Char} {tree : Node}
    (read : parse limits pattern = .ok tree) :
    tree.nodeCount ≤ pattern.length + 1 ∧
      (tree.nodes.map Node.textLength).sum ≤ pattern.length ∧
      3 * (tree.nodes.map Node.memberCount).sum ≤
        pattern.length * max 150 (limits.maxRangeSpan + 1) := by
  obtain ⟨_, _, _, _, root⟩ := parse_eq_ok_iff_describes.mp read
  have ofNodes := (paysFor_node limits).weight_le_of_parse read
  have ofText := (paysFor_text limits).weight_le_of_parse read
  have ofMembers := (paysFor_members limits).weight_le_of_parse read
  -- The root is a sequence, which holds neither text nor members itself.
  have rootText : tree.textLength = 0 := by subst root; rfl
  have rootMembers : tree.memberCount = 0 := by subst root; rfl
  have eachOnce : tree.weight (fun _ => 1) = tree.nodeCount := by
    rw [weight, List.map_const', List.sum_replicate_nat, Nat.mul_one, length_nodes]
  refine ⟨?_, ?_, ?_⟩
  · rw [eachOnce] at ofNodes
    omega
  · rw [rootText] at ofText
    unfold weight at ofText
    omega
  · rw [rootMembers, weight, List.sum_map_mul_left, memberRate] at ofMembers
    rw [Nat.mul_comm pattern.length]
    omega

/-- Two operators that switch inside a group, an escape, a class, a range and a name. -/
theorem Node.size_le_of_parse_switch :
    let limits : Limits := { maxRangeSpan := 2 }
    let pattern := "(\\a|b&[\\dx-z])$\x7bname\x7d".toList
    let tree : Node := .sequence
      [.sequence
        [.permutation
          [.alternation [.literal ['a'], .literal ['b']],
            .characterSet "0123456789xyz".toList .once]],
        .reference "name".toList]
    parse limits pattern = .ok tree ∧
      tree.nodeCount ≤ 21 + 1 ∧
        (tree.nodes.map Node.textLength).sum ≤ 21 ∧
          3 * (tree.nodes.map Node.memberCount).sum ≤ 21 * max 150 (2 + 1) := by
  intro limits pattern tree
  have read : parse limits pattern = .ok tree := by decide +kernel
  exact ⟨read, Node.size_le_of_parse read⟩

end TextTemplate
