import TextTemplate.Proofs.Pattern.Concatenation
import TextTemplate.Proofs.Pattern.WiderLimits

/-!
# Grouped operands

Parentheses make an operand of any pattern, one level of groups deeper than on its own.  So
patterns in parentheses with operators between some of them show the grouping rule alone:
operators join a stretch of trees from the left, and where no operator stands a new stretch
begins.
-/

namespace TextTemplate

variable {limits : Limits}

/-! ## The grouping rule -/

namespace Node

/--
A node with one more operand: a run of the same operator collects it, and any other node
becomes the first operand of a new run.
-/
def withOperand : Node → Operator × Node → Node
  | .alternation operands, (.alternate, operand) => .alternation (operands ++ [operand])
  | .permutation operands, (.permute, operand) => .permutation (operands ++ [operand])
  | node, (.alternate, operand) => .alternation [node, operand]
  | node, (.permute, operand) => .permutation [node, operand]

theorem combine_withOperand (operator : Operator) (first second : Node) (rest : List Node)
    (operand : Node) :
    (operator.combine (first :: second :: rest)).withOperand (operator, operand) =
      operator.combine (first :: second :: (rest ++ [operand])) := by
  cases operator <;> rfl

theorem withOperand_of_operator?_ne {node : Node} {operator : Operator}
    (other : node.operator? ≠ some operator) (operand : Node) :
    node.withOperand (operator, operand) = operator.combine [node, operand] := by
  cases node <;> cases operator <;> first
    | rfl
    | exact absurd rfl other

end Node

theorem extendRun_eq_foldl (operator : Operator) (first second : Node) (others : List Node)
    (joined : List (Operator × Node)) :
    extendRun operator (first :: second :: others) joined =
      joined.foldl Node.withOperand (operator.combine (first :: second :: others)) := by
  induction joined generalizing operator first second others with
  | nil => rfl
  | cons operand rest ih =>
      rcases operand with ⟨next, node⟩
      rw [extendRun, List.foldl_cons]
      split
      · next same =>
          subst same
          rw [Node.combine_withOperand]
          exact ih next first second (others ++ [node])
      · next switches =>
          have other : (operator.combine (first :: second :: others)).operator? ≠ some next := by
            rw [Node.operator?_combine]
            exact fun same => switches (Option.some.inj same).symm
          rw [Node.withOperand_of_operator?_ne other]
          exact ih next _ node []

/-- The node of a chain is folded from the left. -/
theorem chainNode_eq_foldl {first : Node} (single : first.operator? = none)
    (joined : List (Operator × Node)) :
    chainNode first joined = joined.foldl Node.withOperand first := by
  cases joined with
  | nil => rfl
  | cons operand rest =>
      rcases operand with ⟨operator, second⟩
      rw [chainNode, extendRun_eq_foldl, List.foldl_cons,
        Node.withOperand_of_operator?_ne (by simp [single])]

/--
The stretches of some nodes, each with what stands between it and the one before: an operator
joins a node to the stretch so far, and without one a new stretch begins.
-/
def stretchesFrom (first : Node) (joined : List (Operator × Node)) :
    List (Option Operator × Node) → List (Node × List (Operator × Node))
  | [] => [(first, joined)]
  | (none, node) :: rest => (first, joined) :: stretchesFrom node [] rest
  | (some operator, node) :: rest => stretchesFrom first (joined ++ [(operator, node)]) rest

/-- One node for every stretch, folded from the left; a stretch of one node is that node. -/
def groupNodes (first : Node) (others : List (Option Operator × Node)) : List Node :=
  (stretchesFrom first [] others).map fun (first, joined) => joined.foldl Node.withOperand first

/-! ## Patterns in parentheses -/

def inParentheses (pattern : List Char) : List Char := '(' :: pattern ++ [')']

/-- A pattern in parentheses behind an operator or nothing. -/
def connected : Option Operator × List Char → List Char
  | (none, pattern) => inParentheses pattern
  | (some operator, pattern) => operator.symbol :: inParentheses pattern

/-- Patterns in parentheses, each behind an operator or nothing. -/
def groupPattern (first : List Char) (others : List (Option Operator × List Char)) : List Char :=
  inParentheses first ++ others.flatMap connected

/-- The same limits with room for one more level of groups. -/
def Limits.deeper (limits : Limits) : Limits := { limits with maxDepth := limits.maxDepth + 1 }

theorem Limits.isWithin_deeper (limits : Limits) : limits.IsWithin limits.deeper :=
  ⟨Nat.le_succ _, Nat.le_refl _, Nat.le_refl _⟩

/-- A pattern in parentheses is an item of its tree, and any pattern may follow it. -/
theorem exists_itemTokens_of_parse {pattern : List Char} {tree : Node}
    (read : parse limits pattern = .ok tree) :
    tree.operator? = none ∧ ∃ item, ItemTokens limits.deeper 0 item tree ∧
      ∀ {rest later}, WritesTokens limits.deeper rest later →
        WritesTokens limits.deeper (inParentheses pattern ++ rest) (item ++ later) := by
  obtain ⟨tokens, nodes, writes, derives, rfl⟩ := parse_eq_ok_iff_describes.mp read
  have wide : WritesTokens limits.deeper pattern tokens := writes.mono limits.isWithin_deeper
  refine ⟨rfl, _, .group (Nat.succ_pos _) (derives.deeper (Nat.lt_succ_self _)), ?_⟩
  intro rest later writesRest
  -- Literal text at the end of the pattern ends in front of the parenthesis.
  have closes := WritesTokens.closeGroup writesRest
  have apart : Token.LiteralsApart (tokens ++ .closeGroup :: later) := by
    refine List.isChain_append.mpr ⟨wide.literalsApart, closes.literalsApart, ?_⟩
    rintro last - _ ⟨⟩ ⟨-, impossible⟩
    cases impossible
  simpa [inParentheses] using WritesTokens.openGroup (wide.append closes apart)

/-- A pattern, and the tree that it is read to, behind the same operator or nothing. -/
def IsReadTo (limits : Limits) (other : Option Operator × List Char)
    (node : Option Operator × Node) : Prop :=
  other.1 = node.1 ∧ parse limits other.2 = .ok node.2

/-- Further patterns in parentheses go on with a stretch, or begin new ones behind it. -/
theorem exists_sequenceTokens_of_isReadTo {others : List (Option Operator × List Char)}
    {nodes : List (Option Operator × Node)}
    (reads : List.Forall₂ (IsReadTo limits) others nodes) :
    ∃ later, WritesTokens limits.deeper (others.flatMap connected) later ∧
      ∀ {item soFar first joined}, first.operator? = none →
        ItemTokens limits.deeper 0 item first → JoinedTokens limits.deeper 0 soFar joined →
          SequenceTokens limits.deeper 0 (item ++ soFar ++ later)
            ((stretchesFrom first joined nodes).map
              fun (first, joined) => joined.foldl Node.withOperand first) := by
  induction reads with
  | nil =>
      refine ⟨[], .nil, ?_⟩
      intro item soFar first joined single begins goesOn
      have alone := SequenceTokens.chain begins goesOn .nil
      rwa [chainNode_eq_foldl single] at alone
  | @cons other node others nodes same reads ih =>
      rcases other with ⟨connector, pattern⟩
      rcases node with ⟨_, tree⟩
      obtain ⟨rfl, read⟩ := same
      obtain ⟨later, writes, derives⟩ := ih
      obtain ⟨single, operand, isItem, writesBehind⟩ := exists_itemTokens_of_parse read
      cases connector with
      | none =>
          refine ⟨operand ++ later, writesBehind writes, ?_⟩
          intro item soFar first joined firstSingle begins goesOn
          have fresh := derives single isItem .nil
          rw [List.append_nil] at fresh
          have whole := SequenceTokens.chain begins goesOn fresh
          rwa [chainNode_eq_foldl firstSingle] at whole
      | some operator =>
          refine ⟨.operator operator :: operand ++ later,
            .operator operator (writesBehind writes), ?_⟩
          intro item soFar first joined firstSingle begins goesOn
          have longer := goesOn.append (.cons operator isItem .nil)
          have whole := derives firstSingle begins longer
          simpa [stretchesFrom] using whole

/--
Patterns in parentheses, with operators or nothing between them, are read to one node for every
stretch that operators join, provided that one more level of groups is allowed.
-/
theorem parse_groupPattern {first : List Char} {tree : Node}
    {others : List (Option Operator × List Char)} {trees : List (Option Operator × Node)}
    (read : parse limits first = .ok tree)
    (reads : List.Forall₂ (IsReadTo limits) others trees) :
    parse limits.deeper (groupPattern first others) = .ok (.sequence (groupNodes tree trees)) := by
  obtain ⟨single, item, isItem, writesBehind⟩ := exists_itemTokens_of_parse read
  obtain ⟨later, writes, derives⟩ := exists_sequenceTokens_of_isReadTo reads
  have whole := derives single isItem .nil
  rw [List.append_nil] at whole
  exact parse_eq_ok_iff_describes.mpr ⟨_, _, writesBehind writes, whole, rfl⟩

/-- Three operands of one kind, a switch that nests them, and a second stretch behind. -/
theorem parse_groupPattern_of_two_stretches :
    let limits : Limits := { maxDepth := 1 }
    let others : List (Option Operator × List Char) :=
      [(some .alternate, "[bc]\x7b2\x7d".toList), (some .alternate, []),
        (some .permute, "(x)|y".toList), (none, ['d']), (some .permute, ['e'])]
    let members : Node := .sequence [.characterSet ['b', 'c'] (.exactly 2)]
    let choice : Node := .sequence [.alternation [.sequence [.literal ['x']], .literal ['y']]]
    let nodes : List (Option Operator × Node) :=
      [(some .alternate, members), (some .alternate, .sequence []), (some .permute, choice),
        (none, .sequence [.literal ['d']]), (some .permute, .sequence [.literal ['e']])]
    parse limits ['a'] = .ok (.sequence [.literal ['a']]) ∧
      List.Forall₂ (IsReadTo limits) others nodes ∧
        parse { maxDepth := 2 } "(a)|([bc]\x7b2\x7d)|()&((x)|y)(d)&(e)".toList =
          .ok (.sequence
            [.permutation [.alternation [.sequence [.literal ['a']], members, .sequence []],
                choice],
              .permutation [.sequence [.literal ['d']], .sequence [.literal ['e']]]]) := by
  intro limits others members choice nodes
  have read : parse limits ['a'] = .ok (.sequence [.literal ['a']]) := by decide +kernel
  have reads : List.Forall₂ (IsReadTo limits) others nodes := by
    refine .cons ⟨rfl, ?_⟩ (.cons ⟨rfl, ?_⟩ (.cons ⟨rfl, ?_⟩ (.cons ⟨rfl, ?_⟩ (.cons ⟨rfl, ?_⟩
      .nil)))) <;> decide +kernel
  exact ⟨read, reads, parse_groupPattern read reads⟩

end TextTemplate
