import TextTemplate.Proofs.Pattern.NormalForm

/-!
# Patterns for trees in normal form

The pattern written for a tree in normal form is read back to that tree.  In between stand
the tokens of the tree: the pattern writes them, and they lead the open groups to the tree.
-/

namespace TextTemplate

/-! ## Leaves -/

namespace PatternWriter

theorem writesLiteral_literalCharacter (text : List Char) :
    WritesLiteral (text.flatMap literalCharacter) text := by
  induction text with
  | nil => exact .nil
  | cons character rest ih =>
      rw [List.flatMap_cons, literalCharacter]
      split
      · exact .escaped character ih
      · next plain =>
          simp only [Bool.or_eq_true, beq_iff_eq, not_or, Bool.not_eq_true] at plain
          exact .plain plain.1 plain.2 ih

/-- No letter of a class needs an escape in the first place. -/
theorem escapedMembers_of_escaped {character : Char}
    (escapes : isMeta character || character == '\\' || character == '-') :
    escapedMembers character = [character] := by
  simp only [isMeta, metaCharacters, List.contains_eq_mem, List.mem_cons, List.not_mem_nil,
    or_false, Bool.or_eq_true, decide_eq_true_eq, beq_iff_eq] at escapes
  rcases escapes with ((rfl | rfl | rfl | rfl | rfl | rfl | rfl | rfl | rfl) | rfl) | rfl <;> rfl

theorem head?_flatMap_member (members : List Char) :
    (members.flatMap member).head? ≠ some '-' := by
  cases members with
  | nil => simp
  | cons character rest =>
      rw [List.flatMap_cons, member]
      split
      · simp
      · next plain =>
          simp only [Bool.or_eq_true, beq_iff_eq, not_or] at plain
          simpa using plain.2

theorem writesMembers_member (limits : Limits) (members : List Char) :
    WritesMembers limits (members.flatMap member) members := by
  induction members with
  | nil => exact .nil
  | cons character rest ih =>
      rw [List.flatMap_cons, member]
      split
      · next escapes =>
          have written := WritesMembers.escaped character ih
          rwa [escapedMembers_of_escaped escapes] at written
      · next plain =>
          simp only [Bool.or_eq_true, beq_iff_eq, not_or, Bool.not_eq_true] at plain
          exact .single plain.1.1 plain.1.2 (head?_flatMap_member rest) ih

theorem writesNumber_toDigits (number : Nat) : WritesNumber (Nat.toDigits 10 number) number :=
  ⟨fun _ member => Nat.isDigit_of_mem_toDigits (by decide) (by decide) member,
    Nat.ofDigitChars_ten_toDigits⟩

theorem writesRepetition_quantifier {limits : Limits} {repetition : Repetition}
    (normal : repetition.isNormal limits = true) :
    WritesRepetition limits (quantifier repetition) repetition := by
  fun_cases quantifier repetition with
  | case1 => exact .once
  | case2 count notOne =>
      have differs : count ≠ 1 := fun same => notOne same
      simp only [Repetition.isNormal, Bool.or_eq_true, beq_iff_eq, differs, false_or,
        Bool.and_eq_true, decide_eq_true_eq] at normal
      exact .exactly (writesNumber_toDigits count) normal.2 normal.1
  | case3 low high =>
      simp only [Repetition.isNormal, Bool.and_eq_true, decide_eq_true_eq] at normal
      have named : Nat.toDigits 10 high ≠ [] := Nat.toDigits_ne_nil
      exact .between (writesNumber_toDigits low) rfl (writesNumber_toDigits high) named
        normal.1.1 normal.2 normal.1.2

end PatternWriter

theorem closingBrace_not_mem {name : List Char} (valid : isIdentifier name = true) :
    '\x7d' ∉ name := by
  have stops : Identifier.canContinue '\x7d' = false := by decide +kernel
  have starts : Identifier.canStart '\x7d' = false := by decide +kernel
  cases name with
  | nil => simp
  | cons first rest =>
      rw [isIdentifier, Bool.and_eq_true, List.all_eq_true] at valid
      intro member
      rcases List.mem_cons.mp member with same | member
      · rw [← same, starts] at valid
        cases valid.1
      · have continues := valid.2 _ member
        rw [stops] at continues
        cases continues

/-! ## Tokens of a tree -/

namespace Node

theorem ne_nil_of_operandsApart {operator : Operator} {operands : List Node}
    (apart : operandsApart operator operands = true) : operands ≠ [] := by
  rintro rfl
  cases apart

mutual

/-- The tokens that stand for a node inside a sequence. -/
def tokens : Node → List Token
  | .sequence children => .openGroup :: tokensOf children ++ [.closeGroup]
  | .alternation operands => joinedTokens .alternate operands
  | .permutation operands => joinedTokens .permute operands
  | .literal text => [.leaf (.literal text)]
  | .characterSet members repetition => [.leaf (.characterSet members repetition)]
  | .reference name => [.leaf (.reference name)]

def tokensOf : List Node → List Token
  | [] => []
  | node :: rest => tokens node ++ tokensOf rest

/-- The tokens of operands with an operator between them. -/
def joinedTokens (operator : Operator) : List Node → List Token
  | [] => []
  | first :: rest => tokens first ++ operandTokens operator rest

/-- The tokens of operands, each behind its operator. -/
def operandTokens (operator : Operator) : List Node → List Token
  | [] => []
  | node :: rest => .operator operator :: tokens node ++ operandTokens operator rest

end

end Node

open PatternWriter

/-- A node that does not begin with literal text begins with a structural character. -/
theorem endsLiteral_item {limits : Limits} {levels : Nat} :
    ∀ node : Node, node.isNormalItem limits levels = true → node.firstItem.isLiteral = false →
      ∀ rest, EndsLiteral (item node ++ rest)
  | .literal text, _, literal, _ => by cases literal
  | .characterSet members repetition, _, _, _ => endsLiteral_cons_iff.mpr rfl
  | .sequence children, _, _, _ => endsLiteral_cons_iff.mpr rfl
  | .reference name, _, _, _ => endsLiteral_cons_iff.mpr rfl
  | .alternation [], normal, _, _ => by cases normal
  | .permutation [], normal, _, _ => by cases normal
  | .alternation [_], normal, _, _ => by cases normal
  | .permutation [_], normal, _, _ => by cases normal
  | .alternation (first :: second :: others), normal, literal, rest => by
      simp only [Node.isNormalItem, Node.areNormalItems, Bool.and_eq_true] at normal
      simp only [item, joined, List.append_assoc]
      exact endsLiteral_item first normal.2.1 literal _
  | .permutation (first :: second :: others), normal, literal, rest => by
      simp only [Node.isNormalItem, Node.areNormalItems, Bool.and_eq_true] at normal
      simp only [item, joined, List.append_assoc]
      exact endsLiteral_item first normal.2.1 literal _

theorem flatMap_literalCharacter_ne_nil {text : List Char} (notEmpty : text ≠ []) :
    text.flatMap literalCharacter ≠ [] := by
  cases text with
  | nil => exact absurd rfl notEmpty
  | cons character rest =>
      rw [List.flatMap_cons, literalCharacter]
      split <;> simp

theorem flatMap_member_ne_nil {members : List Char} (someMember : members ≠ []) :
    members.flatMap member ≠ [] := by
  cases members with
  | nil => exact absurd rfl someMember
  | cons character rest =>
      rw [List.flatMap_cons, member]
      split <;> simp

mutual

/-- The pattern of a node writes its tokens, unless the rest goes on with literal text. -/
theorem writesTokens_item {limits : Limits} {rest : List Char} {later : List Token} :
    ∀ (levels : Nat) (node : Node), node.isNormalItem limits levels = true →
      (node.lastItem.isLiteral = true → EndsLiteral rest) → WritesTokens limits rest later →
        WritesTokens limits (item node ++ rest) (node.tokens ++ later)
  | _, .literal text, normal, ends, writes => by
      have notEmpty : text ≠ [] := by simpa [Node.isNormalItem] using normal
      exact .literal (writesLiteral_literalCharacter text)
        (flatMap_literalCharacter_ne_nil notEmpty) (ends rfl) writes
  | _, .characterSet members repetition, normal, ends, writes => by
      simp only [Node.isNormalItem, Bool.and_eq_true, Bool.not_eq_true',
        List.isEmpty_eq_false_iff] at normal
      exact .characterSet (writesMembers_member limits members)
        (flatMap_member_ne_nil normal.1) (writesRepetition_quantifier normal.2) writes
  | _, .reference name, normal, ends, writes => by
      have written := WritesTokens.reference (closingBrace_not_mem normal) normal writes
      simpa [item, Node.tokens] using written
  | 0, .sequence children, normal, _, _ => by cases normal
  | levels + 1, .sequence children, normal, ends, writes => by
      simp only [Node.isNormalItem, Bool.and_eq_true] at normal
      have inner := writesTokens_items levels children normal.2 normal.1
        (fun _ _ _ => endsLiteral_cons_iff.mpr rfl) (.closeGroup writes)
      have written := WritesTokens.openGroup inner
      simpa [item, Node.tokens] using written
  | levels, .alternation operands, normal, ends, writes => by
      simp only [Node.isNormalItem, Bool.and_eq_true] at normal
      exact writesTokens_joined levels (.alternation operands) .alternate operands
        (Node.ne_nil_of_operandsApart normal.1) normal.2 ends writes
  | levels, .permutation operands, normal, ends, writes => by
      simp only [Node.isNormalItem, Bool.and_eq_true] at normal
      exact writesTokens_joined levels (.permutation operands) .permute operands
        (Node.ne_nil_of_operandsApart normal.1) normal.2 ends writes

theorem writesTokens_items {limits : Limits} {rest : List Char} {later : List Token} :
    ∀ (levels : Nat) (nodes : List Node), Node.areNormalItems limits levels nodes = true →
      Node.literalsApart nodes = true →
        (∀ node ∈ nodes.getLast?, node.lastItem.isLiteral = true → EndsLiteral rest) →
          WritesTokens limits rest later →
            WritesTokens limits (items nodes ++ rest) (Node.tokensOf nodes ++ later)
  | _, [], _, _, _, writes => writes
  | levels, [node], normal, _, ends, writes => by
      simp only [Node.areNormalItems, Bool.and_eq_true] at normal
      have written := writesTokens_item levels node normal.1 (ends node rfl) writes
      simpa [items, Node.tokensOf] using written
  | levels, node :: next :: nodes, normal, apart, ends, writes => by
      simp only [Node.areNormalItems, Bool.and_eq_true] at normal
      simp only [Node.literalsApart, Bool.and_eq_true, Bool.not_eq_true',
        Bool.and_eq_false_iff] at apart
      have behind := writesTokens_items levels (next :: nodes)
        (by simpa [Node.areNormalItems] using normal.2) apart.2
        (by simpa [List.getLast?_cons_cons] using ends) writes
      have written := writesTokens_item levels node normal.1
        (by
          intro literal
          rw [items, List.append_assoc]
          refine endsLiteral_item next normal.2.1 (apart.1.resolve_left ?_) _
          simp [literal])
        behind
      simpa [items, Node.tokensOf] using written

theorem writesTokens_joined {limits : Limits} {rest : List Char} {later : List Token} :
    ∀ (levels : Nat) (whole : Node) (operator : Operator) (operands : List Node),
      operands ≠ [] → Node.areNormalItems limits levels operands = true →
        ((Node.lastItemOf whole operands).isLiteral = true → EndsLiteral rest) →
          WritesTokens limits rest later →
            WritesTokens limits (joined operator.symbol operands ++ rest)
              (Node.joinedTokens operator operands ++ later)
  | _, _, _, [], notEmpty, _, _, _ => absurd rfl notEmpty
  | levels, whole, operator, [node], _, normal, ends, writes => by
      simp only [Node.areNormalItems, Bool.and_eq_true] at normal
      have written := writesTokens_item levels node normal.1 ends writes
      simpa [joined, Node.joinedTokens, Node.operandTokens] using written
  | levels, whole, operator, node :: next :: operands, _, normal, ends, writes => by
      simp only [Node.areNormalItems, Bool.and_eq_true] at normal
      have behind := writesTokens_joined levels whole operator (next :: operands)
        (List.cons_ne_nil _ _) (by simpa [Node.areNormalItems] using normal.2) ends writes
      have written := writesTokens_item levels node normal.1
        (fun _ => endsLiteral_cons_iff.mpr (isMeta_symbol operator))
        (.operator operator behind)
      simpa [joined, Node.joinedTokens, Node.operandTokens] using written

end

/-! ## Runs over the tokens of a tree -/

namespace Chain

/-- The operator of the run that a chain ends with. -/
def pending? : Chain → Option Operator
  | .settled _ => none
  | .waiting _ operator _ => some operator
  | .joined _ operator _ => some operator

/-- An operator other than that of the run takes the latest node as its first operand. -/
theorem join_of_flush {chain : Chain} {operator : Operator} {left : Node} {nodes : List Node}
    (ready : chain.IsReady) (flushed : chain.flush = left :: nodes)
    (other : chain.pending? ≠ some operator) :
    chain.join operator = .ok (.waiting nodes operator [left]) := by
  cases chain with
  | settled settledNodes =>
      have same : settledNodes = left :: nodes := flushed
      subst same
      rfl
  | waiting settledNodes pending operands => exact False.elim ready
  | joined settledNodes pending operands =>
      cases flushed
      exact if_neg fun same => other (congrArg some same)

end Chain

open Nesting

theorem exists_later_of_single {limits : Limits} {node : Node} {tokens : List Token}
    {chain : Chain} {enclosing : List Chain} (ready : chain.IsReady)
    (single : node.operator? = none)
    (run : Nesting.takeAll limits ⟨chain, enclosing⟩ tokens =
      .ok ⟨chain.push node, enclosing⟩) :
    ∃ later, Nesting.takeAll limits ⟨chain, enclosing⟩ tokens = .ok ⟨later, enclosing⟩ ∧
      later.IsReady ∧ later.flush = node :: chain.flush ∧ later.pending? = node.operator? := by
  rw [Chain.push_of_isReady ready] at run
  exact ⟨_, run, trivial, rfl, single.symm⟩

mutual

/-- The tokens of a node that joins no operands put it behind what the group holds. -/
theorem takeAll_single {limits : Limits} :
    ∀ (levels : Nat) (node : Node), node.isNormalItem limits levels = true →
      node.operator? = none → ∀ (chain : Chain) (enclosing : List Chain),
        enclosing.length + levels = limits.maxDepth →
          Nesting.takeAll limits ⟨chain, enclosing⟩ node.tokens =
            .ok ⟨chain.push node, enclosing⟩
  | _, .literal _, _, _, _, _, _ => rfl
  | _, .characterSet _ _, _, _, _, _, _ => rfl
  | _, .reference _, _, _, _, _, _ => rfl
  | _, .alternation _, _, single, _, _, _ => by cases single
  | _, .permutation _, _, single, _, _, _ => by cases single
  | 0, .sequence _, normal, _, _, _, _ => by cases normal
  | levels + 1, .sequence children, normal, _, chain, enclosing, depth => by
      simp only [Node.isNormalItem, Bool.and_eq_true] at normal
      obtain ⟨inner, run, ready, flushed⟩ :=
        takeAll_children levels children normal.2 .empty (chain :: enclosing) (by trivial)
          (by rw [List.length_cons]; omega)
      exact takeAll_group (by omega) run ready (by rw [flushed]; exact List.append_nil _)

/-- The tokens of any node add it to the nodes of a chain, as the run of its operator. -/
theorem takeAll_node {limits : Limits} :
    ∀ (levels : Nat) (node : Node), node.isNormalItem limits levels = true →
      ∀ (chain : Chain) (enclosing : List Chain), chain.IsReady →
        enclosing.length + levels = limits.maxDepth →
          ∃ later, Nesting.takeAll limits ⟨chain, enclosing⟩ node.tokens =
              .ok ⟨later, enclosing⟩ ∧
            later.IsReady ∧ later.flush = node :: chain.flush ∧ later.pending? = node.operator?
  | _, .literal _, _, _, _, ready, _ => exists_later_of_single ready rfl rfl
  | _, .characterSet _ _, _, _, _, ready, _ => exists_later_of_single ready rfl rfl
  | _, .reference _, _, _, _, ready, _ => exists_later_of_single ready rfl rfl
  | 0, .sequence _, normal, _, _, _, _ => by cases normal
  | levels + 1, .sequence children, normal, chain, enclosing, ready, depth => by
      simp only [Node.isNormalItem, Bool.and_eq_true] at normal
      obtain ⟨inner, run, innerReady, flushed⟩ :=
        takeAll_children levels children normal.2 .empty (chain :: enclosing) (by trivial)
          (by rw [List.length_cons]; omega)
      exact exists_later_of_single ready rfl
        (takeAll_group (by omega) run innerReady (by rw [flushed]; exact List.append_nil _))
  | levels, .alternation operands, normal, chain, enclosing, ready, depth => by
      simp only [Node.isNormalItem, Bool.and_eq_true] at normal
      have run := takeAll_joined levels .alternate operands normal.1 normal.2 chain enclosing
        ready depth
      obtain ⟨first, second, rest, rfl, _⟩ := Node.operandsApart_iff.mp normal.1
      exact ⟨_, run, trivial, by simp [Chain.flush, Chain.runNode, Operator.combine], rfl⟩
  | levels, .permutation operands, normal, chain, enclosing, ready, depth => by
      simp only [Node.isNormalItem, Bool.and_eq_true] at normal
      have run := takeAll_joined levels .permute operands normal.1 normal.2 chain enclosing
        ready depth
      obtain ⟨first, second, rest, rfl, _⟩ := Node.operandsApart_iff.mp normal.1
      exact ⟨_, run, trivial, by simp [Chain.flush, Chain.runNode, Operator.combine], rfl⟩

theorem takeAll_children {limits : Limits} :
    ∀ (levels : Nat) (nodes : List Node), Node.areNormalItems limits levels nodes = true →
      ∀ (chain : Chain) (enclosing : List Chain), chain.IsReady →
        enclosing.length + levels = limits.maxDepth →
          ∃ later, Nesting.takeAll limits ⟨chain, enclosing⟩ (Node.tokensOf nodes) =
              .ok ⟨later, enclosing⟩ ∧
            later.IsReady ∧ later.flush = nodes.reverse ++ chain.flush
  | _, [], _, chain, _, ready, _ => ⟨chain, rfl, ready, rfl⟩
  | levels, node :: nodes, normal, chain, enclosing, ready, depth => by
      simp only [Node.areNormalItems, Bool.and_eq_true] at normal
      obtain ⟨between, run, stillReady, flushed, _⟩ :=
        takeAll_node levels node normal.1 chain enclosing ready depth
      obtain ⟨later, runLater, laterReady, laterFlushed⟩ :=
        takeAll_children levels nodes normal.2 between enclosing stillReady depth
      refine ⟨later, ?_, laterReady, ?_⟩
      · rw [Node.tokensOf, takeAll_append, run]
        exact runLater
      · rw [laterFlushed, flushed, List.reverse_cons, List.append_assoc]
        rfl

/-- The tokens of operands make one node of them. -/
theorem takeAll_joined {limits : Limits} :
    ∀ (levels : Nat) (operator : Operator) (operands : List Node),
      Node.operandsApart operator operands = true →
        Node.areNormalItems limits levels operands = true →
          ∀ (chain : Chain) (enclosing : List Chain), chain.IsReady →
            enclosing.length + levels = limits.maxDepth →
              Nesting.takeAll limits ⟨chain, enclosing⟩ (Node.joinedTokens operator operands) =
                .ok ⟨.joined chain.flush operator operands.reverse, enclosing⟩
  | _, _, [], apart, _, _, _, _, _ => by cases apart
  | _, _, [_], apart, _, _, _, _, _ => by cases apart
  | levels, operator, first :: second :: rest, apart, normal, chain, enclosing, ready, depth => by
      simp only [Node.areNormalItems, Bool.and_eq_true] at normal
      obtain ⟨_, _, _, ⟨⟩, other, single⟩ := Node.operandsApart_iff.mp apart
      obtain ⟨between, run, stillReady, flushed, pending⟩ :=
        takeAll_node levels first normal.1 chain enclosing ready depth
      rw [← pending] at other
      have operands := takeAll_operands levels operator (second :: rest) (List.cons_ne_nil _ _)
        single (by simpa [Node.areNormalItems] using normal.2) between chain.flush [first]
        enclosing (Chain.join_of_flush stillReady flushed other) depth
      rw [Node.joinedTokens, takeAll_append, run]
      exact operands.trans (by simp only [List.reverse_cons])

/-- The tokens of further operands go on with a run that an operator may continue. -/
theorem takeAll_operands {limits : Limits} :
    ∀ (levels : Nat) (operator : Operator) (operands : List Node), operands ≠ [] →
      (∀ operand ∈ operands, operand.operator? = none) →
        Node.areNormalItems limits levels operands = true →
          ∀ (start : Chain) (nodes run : List Node) (enclosing : List Chain),
            start.join operator = .ok (.waiting nodes operator run) →
              enclosing.length + levels = limits.maxDepth →
                Nesting.takeAll limits ⟨start, enclosing⟩
                    (Node.operandTokens operator operands) =
                  .ok ⟨.joined nodes operator (operands.reverse ++ run), enclosing⟩
  | _, _, [], notEmpty, _, _, _, _, _, _, _, _ => absurd rfl notEmpty
  | levels, operator, [node], _, single, normal, start, nodes, run, enclosing, joins, depth => by
      simp only [Node.areNormalItems, Bool.and_eq_true] at normal
      have operand := takeAll_single levels node normal.1 (single node (List.mem_cons_self ..))
        (.waiting nodes operator run) enclosing depth
      rw [Node.operandTokens, List.cons_append, takeAll_cons]
      simp only [take, joins, Except.map, Except.bind]
      rw [takeAll_append, operand]
      rfl
  | levels, operator, node :: next :: rest, _, single, normal, start, nodes, run, enclosing,
      joins, depth => by
      simp only [Node.areNormalItems, Bool.and_eq_true] at normal
      have operand := takeAll_single levels node normal.1 (single node (List.mem_cons_self ..))
        (.waiting nodes operator run) enclosing depth
      have others := takeAll_operands levels operator (next :: rest) (List.cons_ne_nil _ _)
        (fun operand member => single operand (List.mem_cons_of_mem _ member))
        (by simpa [Node.areNormalItems] using normal.2) (.joined nodes operator (node :: run))
        nodes (node :: run) enclosing (if_pos rfl) depth
      rw [Node.operandTokens, List.cons_append, takeAll_cons]
      simp only [take, joins, Except.map, Except.bind]
      rw [takeAll_append, operand]
      simp only [Except.bind, Chain.push]
      rw [others]
      simp only [List.reverse_cons, List.append_assoc, List.cons_append, List.nil_append]

end

/-- The pattern written for a tree in normal form is read back to that tree. -/
theorem parse_toPattern {limits : Limits} {tree : Node} (normal : tree.isNormal limits = true) :
    parse limits tree.toPattern = .ok tree := by
  cases tree with
  | sequence children =>
      simp only [Node.isNormal, Node.isNormalItem, Bool.and_eq_true] at normal
      have writes := writesTokens_items limits.maxDepth children normal.2 normal.1
        (fun _ _ _ => endsLiteral_nil) .nil
      obtain ⟨chain, run, ready, flushed⟩ := takeAll_children limits.maxDepth children normal.2
        .empty [] (by trivial) (Nat.zero_add _)
      rw [List.append_nil, List.append_nil] at writes
      refine parse_eq_ok_iff_tokens.mpr ⟨_, writes, ?_⟩
      rw [Nesting.root, run]
      simp only [Except.bind, Nesting.finish, Chain.finish_of_isReady ready, flushed]
      simp [Chain.empty, Chain.flush]
  | _ => cases normal

/--
Exactly the trees in normal form come from patterns, and each of them comes from the pattern
that is written for it.
-/
theorem parse_image_iff_isNormal (limits : Limits) (tree : Node) :
    ((∃ pattern, parse limits pattern = .ok tree) ↔ tree.isNormal limits = true) ∧
      (parse limits tree.toPattern = .ok tree ↔ tree.isNormal limits = true) := by
  constructor
  · constructor
    · rintro ⟨pattern, read⟩
      exact isNormal_of_parse read
    · intro normal
      exact ⟨tree.toPattern, parse_toPattern normal⟩
  · exact ⟨isNormal_of_parse, parse_toPattern⟩

end TextTemplate
