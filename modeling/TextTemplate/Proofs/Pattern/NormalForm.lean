import Mathlib.Data.List.Chain
import TextTemplate.Pattern.Writer
import TextTemplate.Proofs.Pattern.Acceptance

/-!
# Trees of patterns are in normal form

The writings of tokens keep literal text apart, and the derivations of a sequence carry that
over to the nodes: what begins or ends with literal text comes from tokens that do.
-/

namespace TextTemplate

/-! ## Tokens of a pattern -/

namespace Token

def isLiteral : Token → Bool
  | .leaf node => node.isLiteral
  | _ => false

/-- No literal text stands directly behind other literal text. -/
def LiteralsApart (tokens : List Token) : Prop :=
  tokens.IsChain fun before after => ¬ (before.isLiteral = true ∧ after.isLiteral = true)

end Token

/-- A node in normal form that holds no other node. -/
inductive Node.IsLeaf (limits : Limits) : Node → Prop where
  | literal {text : List Char} (notEmpty : text ≠ []) : IsLeaf limits (.literal text)
  | characterSet {members : List Char} {repetition : Repetition} (someMember : members ≠ [])
      (normal : repetition.isNormal limits = true) :
      IsLeaf limits (.characterSet members repetition)
  | reference {name : List Char} (valid : isIdentifier name = true) :
      IsLeaf limits (.reference name)

theorem WritesRepetition.isNormal {limits : Limits} {written : List Char}
    {repetition : Repetition} (repeats : WritesRepetition limits written repetition) :
    repetition.isNormal limits = true := by
  cases repeats with
  | once => rfl
  | exactly digits fits allowed => simp [Repetition.isNormal, fits, allowed]
  | between lowerDigits parted upperDigits named ordered fits allowed =>
      simp [Repetition.isNormal, ordered, fits, allowed]

theorem WritesTokens.leaves {limits : Limits} {written : List Char} {tokens : List Token}
    (writes : WritesTokens limits written tokens) :
    ∀ node, .leaf node ∈ tokens → node.IsLeaf limits := by
  induction writes with
  | nil => simp
  | literal writes notEmpty ends later ih =>
      intro node member
      rcases List.mem_cons.mp member with same | member
      · cases same
        refine .literal ?_
        cases writes <;> simp_all
      · exact ih node member
  | characterSet writes notEmpty repeats later ih =>
      intro node member
      rcases List.mem_cons.mp member with same | member
      · cases same
        exact .characterSet (mt writes.members_eq_nil_iff.mp notEmpty) repeats.isNormal
      · exact ih node member
  | reference unbraced valid later ih =>
      intro node member
      rcases List.mem_cons.mp member with same | member
      · cases same
        exact .reference valid
      · exact ih node member
  | openGroup later ih => simpa using ih
  | closeGroup later ih => simpa using ih
  | operator operator later ih => simpa using ih

/-- Literal text begins with a character that would go on with literal text before it. -/
theorem WritesTokens.not_isLiteral_of_endsLiteral {limits : Limits} {written : List Char}
    {tokens : List Token} (writes : WritesTokens limits written tokens)
    (ends : EndsLiteral written) : ∀ token ∈ tokens.head?, token.isLiteral = false := by
  cases writes with
  | literal writes notEmpty _ later =>
      obtain ⟨first, rest, rfl, ordinary⟩ := writes.exists_ordinary notEmpty
      rw [List.cons_append, endsLiteral_cons_iff, ordinary] at ends
      cases ends
  | _ => simp [Token.isLiteral, Node.isLiteral]

theorem WritesTokens.literalsApart {limits : Limits} {written : List Char}
    {tokens : List Token} (writes : WritesTokens limits written tokens) :
    Token.LiteralsApart tokens := by
  induction writes with
  | nil => exact List.isChain_nil
  | literal writes notEmpty ends later ih =>
      refine List.isChain_cons.mpr ⟨?_, ih⟩
      intro next first both
      have apart := later.not_isLiteral_of_endsLiteral ends next first
      rw [apart] at both
      cases both.2
  | _ =>
      next ih =>
      refine List.isChain_cons.mpr ⟨?_, ih⟩
      intro next first both
      cases both.1

/-! ## Nodes of a sequence -/

namespace Node

/-- A node in normal form that joins no operands. -/
structure IsItem (limits : Limits) (levels : Nat) (node : Node) : Prop where
  normal : node.isNormalItem limits levels = true
  single : node.operator? = none

theorem IsLeaf.isItem {limits : Limits} {node : Node} (leaf : node.IsLeaf limits)
    (levels : Nat) : node.IsItem limits levels := by
  cases leaf with
  | literal notEmpty => exact ⟨by simp [isNormalItem, notEmpty], rfl⟩
  | characterSet someMember normal => exact ⟨by simp [isNormalItem, someMember, normal], rfl⟩
  | reference valid => exact ⟨by simp [isNormalItem, valid], rfl⟩

theorem firstItem_of_single {node : Node} (single : node.operator? = none) :
    node.firstItem = node := by
  cases node <;> first
    | rfl
    | cases single

theorem lastItem_of_single {node : Node} (single : node.operator? = none) :
    node.lastItem = node := by
  cases node <;> first
    | rfl
    | cases single

@[simp]
theorem areNormalItems_append (limits : Limits) (levels : Nat) (nodes more : List Node) :
    areNormalItems limits levels (nodes ++ more) =
      (areNormalItems limits levels nodes && areNormalItems limits levels more) := by
  induction nodes with
  | nil => rfl
  | cons node rest ih => simp [areNormalItems, ih, Bool.and_assoc]

theorem operandsApart_iff {operator : Operator} {operands : List Node} :
    operandsApart operator operands = true ↔
      ∃ first second rest, operands = first :: second :: rest ∧
        first.operator? ≠ some operator ∧
          ∀ operand ∈ second :: rest, operand.operator? = none := by
  match operands with
  | [] => simp [operandsApart]
  | [_] => simp [operandsApart]
  | first :: second :: rest => simp [operandsApart, and_assoc]

/-- Two operands or more make a node of the operator. -/
theorem operator?_combine (operator : Operator) (first second : Node) (rest : List Node) :
    (operator.combine (first :: second :: rest)).operator? = some operator := by
  cases operator <;> rfl

theorem isNormalItem_combine {limits : Limits} {levels : Nat} {operator : Operator}
    {operands : List Node} (apart : operandsApart operator operands = true)
    (normal : areNormalItems limits levels operands = true) :
    (operator.combine operands).isNormalItem limits levels = true := by
  obtain ⟨first, second, rest, rfl, _⟩ := operandsApart_iff.mp apart
  cases operator <;> simp [Operator.combine, isNormalItem, apart, normal]

theorem firstItem_combine (operator : Operator) (first second : Node) (rest : List Node) :
    (operator.combine (first :: second :: rest)).firstItem = first.firstItem := by
  cases operator <;> rfl

theorem lastItemOf_append (whole : Node) (before : List Node) (last : Node) :
    lastItemOf whole (before ++ [last]) = last.lastItem := by
  induction before with
  | nil => rfl
  | cons node rest ih =>
      cases rest with
      | nil => rfl
      | cons next rest => exact ih

theorem lastItem_combine (operator : Operator) (first : Node) (between : List Node)
    (last : Node) :
    (operator.combine (first :: between ++ [last])).lastItem = last.lastItem := by
  obtain ⟨second, rest, same⟩ : ∃ second rest, between ++ [last] = second :: rest := by
    cases between with
    | nil => exact ⟨last, [], rfl⟩
    | cons second rest => exact ⟨second, rest ++ [last], rfl⟩
  have ends (whole : Node) := lastItemOf_append whole (first :: between) last
  rw [List.cons_append, same] at ends ⊢
  cases operator <;> exact ends _

end Node

section Runs

variable {limits : Limits} {levels : Nat}

theorem extendRun_isNormalItem {operator : Operator} {operands : List Node}
    {joined : List (Operator × Node)} (apart : Node.operandsApart operator operands = true)
    (normal : Node.areNormalItems limits levels operands = true)
    (items : ∀ operand ∈ joined, operand.2.IsItem limits levels) :
    (extendRun operator operands joined).isNormalItem limits levels = true := by
  induction joined generalizing operator operands with
  | nil => exact Node.isNormalItem_combine apart normal
  | cons operand rest ih =>
      rcases operand with ⟨next, node⟩
      have item : node.IsItem limits levels := items _ (List.mem_cons_self ..)
      have later : ∀ operand ∈ rest, operand.2.IsItem limits levels :=
        fun operand member => items operand (List.mem_cons_of_mem _ member)
      obtain ⟨first, second, others, rfl, other, single⟩ := Node.operandsApart_iff.mp apart
      rw [extendRun]
      split
      · refine ih ?_ ?_ later
        · refine Node.operandsApart_iff.mpr ⟨first, second, others ++ [node], rfl, other, ?_⟩
          intro operand member
          rw [← List.cons_append, List.mem_append, List.mem_singleton] at member
          rcases member with member | rfl
          · exact single operand member
          · exact item.single
        · rw [Node.areNormalItems_append, normal]
          simp [Node.areNormalItems, item.normal]
      · next switches =>
          refine ih ?_ ?_ later
          · refine Node.operandsApart_iff.mpr ⟨_, node, [], rfl, ?_, ?_⟩
            · rw [Node.operator?_combine]
              exact fun same => switches (Option.some.inj same).symm
            · simpa using item.single
          · simp [Node.areNormalItems, Node.isNormalItem_combine apart normal, item.normal]

theorem firstItem_extendRun (operator : Operator) (first second : Node) (others : List Node)
    (joined : List (Operator × Node)) :
    (extendRun operator (first :: second :: others) joined).firstItem = first.firstItem := by
  induction joined generalizing operator first second others with
  | nil => exact Node.firstItem_combine operator first second others
  | cons operand rest ih =>
      rcases operand with ⟨next, node⟩
      rw [extendRun]
      split
      · exact ih operator first second (others ++ [node])
      · rw [ih, Node.firstItem_combine]

theorem lastItem_extendRun (operator : Operator) (first : Node) (between : List Node)
    (last : Node) (joined : List (Operator × Node)) :
    (extendRun operator (first :: between ++ [last]) joined).lastItem =
      (((operator, last) :: joined).getLast (List.cons_ne_nil _ _)).2.lastItem := by
  induction joined generalizing operator first between last with
  | nil => exact Node.lastItem_combine operator first between last
  | cons operand rest ih =>
      rcases operand with ⟨next, node⟩
      rw [extendRun, List.getLast_cons_cons]
      split
      · next same =>
          subst same
          exact ih next first (between ++ [last]) node
      · exact ih next _ [] node

/-- The node of a chain begins and ends like its first and its last item. -/
theorem chainNode_spec {first : Node} {joined : List (Operator × Node)}
    (begins : first.IsItem limits levels)
    (items : ∀ operand ∈ joined, operand.2.IsItem limits levels) :
    (chainNode first joined).isNormalItem limits levels = true ∧
      (chainNode first joined).firstItem = first ∧
        (chainNode first joined).lastItem = ((joined.getLast?.map Prod.snd).getD first) := by
  cases joined with
  | nil =>
      exact ⟨begins.normal, Node.firstItem_of_single begins.single,
        Node.lastItem_of_single begins.single⟩
  | cons operand rest =>
      rcases operand with ⟨operator, second⟩
      have item : second.IsItem limits levels := items _ (List.mem_cons_self ..)
      refine ⟨?_, ?_, ?_⟩
      · refine extendRun_isNormalItem ?_ ?_ fun operand member =>
          items operand (List.mem_cons_of_mem _ member)
        · refine Node.operandsApart_iff.mpr ⟨first, second, [], rfl, ?_, ?_⟩
          · simp [begins.single]
          · simpa using item.single
        · simp [Node.areNormalItems, begins.normal, item.normal]
      · rw [chainNode, firstItem_extendRun, Node.firstItem_of_single begins.single]
      · have ends := lastItem_extendRun operator first [] second rest
        have last := items _ (List.getLast_mem (List.cons_ne_nil (operator, second) rest))
        rw [Node.lastItem_of_single last.single] at ends
        rw [chainNode, List.getLast?_eq_some_getLast (List.cons_ne_nil _ _)]
        exact ends

end Runs

/-! ## Derivations -/

/-- Tokens as a pattern writes them: the leaves in normal form, literal text apart. -/
structure AreNormalTokens (limits : Limits) (tokens : List Token) : Prop where
  leaves : ∀ node, .leaf node ∈ tokens → node.IsLeaf limits
  apart : Token.LiteralsApart tokens

theorem WritesTokens.areNormal {limits : Limits} {written : List Char} {tokens : List Token}
    (writes : WritesTokens limits written tokens) : AreNormalTokens limits tokens :=
  ⟨writes.leaves, writes.literalsApart⟩

namespace AreNormalTokens

variable {limits : Limits} {before after : List Token}

theorem left (normal : AreNormalTokens limits (before ++ after)) :
    AreNormalTokens limits before :=
  ⟨fun node member => normal.leaves node (List.mem_append_left _ member),
    List.IsChain.left_of_append normal.apart⟩

theorem right (normal : AreNormalTokens limits (before ++ after)) :
    AreNormalTokens limits after :=
  ⟨fun node member => normal.leaves node (List.mem_append_right _ member),
    List.IsChain.right_of_append normal.apart⟩

theorem tail {token : Token} (normal : AreNormalTokens limits (token :: after)) :
    AreNormalTokens limits after :=
  ⟨fun node member => normal.leaves node (List.mem_cons_of_mem _ member),
    List.IsChain.tail normal.apart⟩

end AreNormalTokens

theorem Node.literalsApart_cons {node : Node} {rest : List Node}
    (apart : Node.literalsApart rest = true)
    (between : ∀ next ∈ rest.head?,
      ¬ (node.lastItem.isLiteral = true ∧ next.firstItem.isLiteral = true)) :
    Node.literalsApart (node :: rest) = true := by
  cases rest with
  | nil => rfl
  | cons next rest =>
      have differs := between next rfl
      rw [← Bool.and_eq_true, Bool.not_eq_true] at differs
      simp [Node.literalsApart, differs, apart]

mutual

theorem ItemTokens.isItem {limits : Limits} {depth : Nat} {tokens : List Token} {node : Node} :
    ItemTokens limits depth tokens node → AreNormalTokens limits tokens →
      node.IsItem limits (limits.maxDepth - depth) ∧
        (node.isLiteral = true → tokens = [.leaf node])
  | .leaf node, normal =>
      ⟨(normal.leaves node (List.mem_cons_self ..)).isItem _, fun _ => rfl⟩
  | .group allowed inner, normal => by
      obtain ⟨areNormal, apart, _⟩ := inner.areNormal normal.left.tail
      have level : limits.maxDepth - depth = limits.maxDepth - (depth + 1) + 1 := by omega
      refine ⟨⟨?_, rfl⟩, ?_⟩
      · rw [level, Node.isNormalItem, apart, areNormal]
        rfl
      · rintro ⟨⟩

theorem JoinedTokens.areItems {limits : Limits} {depth : Nat} {tokens : List Token}
    {joined : List (Operator × Node)} :
    JoinedTokens limits depth tokens joined → AreNormalTokens limits tokens →
      (∀ operand ∈ joined, operand.2.IsItem limits (limits.maxDepth - depth)) ∧
        (joined = [] → tokens = []) ∧
          ∀ operand ∈ joined.getLast?, operand.2.isLiteral = true →
            tokens.getLast? = some (.leaf operand.2)
  | .nil, _ => by simp
  | @JoinedTokens.cons _ _ item later node joined operator operand rest, normal => by
      obtain ⟨isItem, alone⟩ := operand.isItem normal.tail.left
      obtain ⟨areItems, nothing, last⟩ := rest.areItems normal.tail.right
      refine ⟨by simpa [isItem] using areItems, by simp, ?_⟩
      intro ending isLast literal
      cases joined with
      | nil =>
          cases isLast
          simp [nothing rfl, alone literal]
      | cons next others =>
          rw [List.getLast?_cons_cons] at isLast
          rw [List.getLast?_append, last ending isLast literal]
          rfl

theorem SequenceTokens.areNormal {limits : Limits} {depth : Nat} {tokens : List Token}
    {nodes : List Node} :
    SequenceTokens limits depth tokens nodes → AreNormalTokens limits tokens →
      Node.areNormalItems limits (limits.maxDepth - depth) nodes = true ∧
        Node.literalsApart nodes = true ∧
          ∀ node ∈ nodes.head?, node.firstItem.isLiteral = true →
            ∃ token ∈ tokens.head?, token.isLiteral = true
  | .nil, _ => by simp [Node.areNormalItems, Node.literalsApart]
  | @SequenceTokens.chain _ _ item others later first joined nodes begins goesOn rest,
      normal => by
      obtain ⟨isItem, alone⟩ := begins.isItem normal.left.left
      obtain ⟨areItems, nothing, last⟩ := goesOn.areItems normal.left.right
      obtain ⟨areNormal, apart, head⟩ := rest.areNormal normal.right
      obtain ⟨chainNormal, chainFirst, chainLast⟩ := chainNode_spec isItem areItems
      refine ⟨?_, Node.literalsApart_cons apart ?_, ?_⟩
      · rw [Node.areNormalItems, chainNormal, areNormal]
        rfl
      · rintro next isNext ⟨endsLiteral, beginsLiteral⟩
        obtain ⟨token, isHead, tokenLiteral⟩ := head next isNext beginsLiteral
        have between := (List.isChain_append.mp normal.apart).2.2
        have ending : ∃ token ∈ (item ++ others).getLast?, token.isLiteral = true := by
          rw [chainLast] at endsLiteral
          cases isLast : joined.getLast? with
          | none =>
              rw [isLast] at endsLiteral
              rw [List.getLast?_eq_none_iff] at isLast
              rw [nothing isLast, alone endsLiteral]
              exact ⟨_, rfl, endsLiteral⟩
          | some operand =>
              rw [isLast] at endsLiteral
              rw [List.getLast?_append, last operand isLast endsLiteral]
              exact ⟨_, rfl, endsLiteral⟩
        rcases ending with ⟨ending, isEnding, endingLiteral⟩
        exact between ending isEnding token isHead ⟨endingLiteral, tokenLiteral⟩
      · rintro node ⟨⟩ literal
        rw [chainFirst] at literal
        rw [alone literal]
        exact ⟨_, rfl, literal⟩

end

/-- What a pattern describes is in normal form. -/
theorem Describes.isNormal {limits : Limits} {pattern : List Char} {tree : Node}
    (describes : Describes limits pattern tree) : tree.isNormal limits = true := by
  rcases describes with ⟨tokens, nodes, writes, derives, rfl⟩
  obtain ⟨areNormal, apart, _⟩ := derives.areNormal writes.areNormal
  rw [Node.isNormal, Node.isNormalItem, apart]
  exact areNormal

theorem isNormal_of_parse {limits : Limits} {pattern : List Char} {tree : Node}
    (read : parse limits pattern = .ok tree) : tree.isNormal limits = true :=
  (parse_eq_ok_iff_describes.mp read).isNormal

end TextTemplate
