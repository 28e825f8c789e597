import TextTemplate.Pattern.Grammar
import TextTemplate.Pattern.Nesting

/-!
# Runs of the open groups and derivations

The tokens of a sequence lead the open groups through a run, and every run comes from
derivations: one for what the innermost group holds and one for each group around it.
-/

namespace TextTemplate

/-! ## Chains -/

namespace Chain

/-- No operator waits for its right operand. -/
def IsReady : Chain → Prop
  | .settled _ => True
  | .waiting _ _ _ => False
  | .joined _ _ _ => True

/-- The nodes of a chain, latest first, if its run ends here. -/
def flush : Chain → List Node
  | .settled nodes => nodes
  | .waiting nodes operator operands => runNode operator operands :: nodes
  | .joined nodes operator operands => runNode operator operands :: nodes

theorem push_of_isReady {chain : Chain} (ready : chain.IsReady) (node : Node) :
    chain.push node = .settled (node :: chain.flush) := by
  cases chain with
  | settled nodes => rfl
  | waiting nodes operator operands => exact False.elim ready
  | joined nodes operator operands => rfl

theorem finish_of_isReady {chain : Chain} (ready : chain.IsReady) :
    chain.finish = .ok chain.flush.reverse := by
  cases chain with
  | settled nodes => rfl
  | waiting nodes operator operands => exact False.elim ready
  | joined nodes operator operands => rfl

/-- A chain with one more operand behind an operator. -/
def attach (chain : Chain) (operand : Operator × Node) : Chain :=
  match chain with
  | .settled [] => chain
  | .settled (left :: nodes) => .joined nodes operand.1 [operand.2, left]
  | .waiting _ _ _ => chain
  | .joined nodes pending operands =>
      if pending = operand.1 then .joined nodes operand.1 (operand.2 :: operands)
      else .joined nodes operand.1 [operand.2, runNode pending operands]

/-- Settled nodes, an item behind them, and the operands that operators add to it. -/
def ofRun (nodes : List Node) (first : Node) (joined : List (Operator × Node)) : Chain :=
  joined.foldl attach (.settled (first :: nodes))

@[simp]
theorem ofRun_nil (nodes : List Node) (first : Node) :
    ofRun nodes first [] = .settled (first :: nodes) :=
  rfl

theorem ofRun_append (nodes : List Node) (first : Node) (joined : List (Operator × Node))
    (operand : Operator × Node) :
    ofRun nodes first (joined ++ [operand]) = (ofRun nodes first joined).attach operand := by
  simp [ofRun]

theorem flush_foldl_attach (nodes : List Node) (operator : Operator) (operands : List Node)
    (joined : List (Operator × Node)) :
    (joined.foldl attach (.joined nodes operator operands)).flush =
      extendRun operator operands.reverse joined :: nodes := by
  induction joined generalizing operator operands with
  | nil => rfl
  | cons operand rest ih =>
      rcases operand with ⟨next, node⟩
      simp only [List.foldl_cons, attach, extendRun]
      by_cases same : operator = next
      · rw [if_pos same, if_pos same.symm, ih, same, List.reverse_cons]
      · rw [if_neg same, if_neg (Ne.symm same), ih]
        rfl

@[simp]
theorem flush_ofRun (nodes : List Node) (first : Node) (joined : List (Operator × Node)) :
    (ofRun nodes first joined).flush = chainNode first joined :: nodes := by
  cases joined with
  | nil => rfl
  | cons operand rest => exact flush_foldl_attach nodes operand.1 [operand.2, first] rest

theorem attach_isReady {chain : Chain} (ready : chain.IsReady) (operand : Operator × Node) :
    (chain.attach operand).IsReady := by
  fun_cases attach chain operand with
  | case1 => trivial
  | case2 => trivial
  | case3 => exact ready
  | case4 => trivial
  | case5 => trivial

theorem foldl_attach_isReady {chain : Chain} (ready : chain.IsReady)
    (joined : List (Operator × Node)) : (joined.foldl attach chain).IsReady := by
  induction joined generalizing chain with
  | nil => exact ready
  | cons operand rest ih => exact ih (attach_isReady ready operand)

theorem ofRun_isReady (nodes : List Node) (first : Node) (joined : List (Operator × Node)) :
    (ofRun nodes first joined).IsReady :=
  foldl_attach_isReady (by trivial) joined

/-- An operator with its right operand goes on with a chain that is not empty. -/
theorem exists_join {chain : Chain} (ready : chain.IsReady) (notEmpty : chain.flush ≠ [])
    (operator : Operator) :
    ∃ waiting, chain.join operator = .ok waiting ∧
      ∀ node, waiting.push node = chain.attach (operator, node) := by
  cases chain with
  | settled nodes =>
      cases nodes with
      | nil => exact absurd rfl notEmpty
      | cons left nodes => exact ⟨_, rfl, fun _ => rfl⟩
  | waiting nodes pending operands => exact False.elim ready
  | joined nodes pending operands =>
      by_cases same : pending = operator
      · subst same
        exact ⟨_, if_pos rfl, fun _ => (if_pos rfl).symm⟩
      · exact ⟨_, if_neg same, fun _ => (if_neg same).symm⟩

/-- Behind an operator neither another operator nor the end of the sequence may stand. -/
theorem waiting_of_join {chain later : Chain} {operator : Operator}
    (joins : chain.join operator = .ok later) :
    ∃ nodes operands, later = .waiting nodes operator operands := by
  fun_cases join operator chain with
  | case1 => cases joins
  | case2 left nodes =>
      cases joins
      exact ⟨_, _, rfl⟩
  | case3 => cases joins
  | case4 nodes operands =>
      rw [join, if_pos rfl] at joins
      cases joins
      exact ⟨_, _, rfl⟩
  | case5 nodes pending operands differ =>
      rw [join, if_neg differ] at joins
      cases joins
      exact ⟨_, _, rfl⟩

end Chain

/-! ## Derivations lead through a run -/

namespace Nesting

/-- What a list of tokens makes of the open groups. -/
def takeAll (limits : Limits) (nesting : Nesting) (tokens : List Token) :
    Except SyntaxFault Nesting :=
  tokens.foldlM (take limits) nesting

theorem takeAll_cons (limits : Limits) (nesting : Nesting) (token : Token)
    (tokens : List Token) :
    nesting.takeAll limits (token :: tokens) =
      (nesting.take limits token).bind fun deeper => deeper.takeAll limits tokens :=
  rfl

theorem takeAll_append (limits : Limits) (nesting : Nesting) (before after : List Token) :
    nesting.takeAll limits (before ++ after) =
      (nesting.takeAll limits before).bind fun deeper => deeper.takeAll limits after :=
  List.foldlM_append

/-- A group puts its nodes as one sequence behind what the group around it holds. -/
theorem takeAll_group {limits : Limits} {tokens : List Token} {nodes : List Node}
    {current inner : Chain} {enclosing : List Chain}
    (room : enclosing.length < limits.maxDepth)
    (run : takeAll limits ⟨.empty, current :: enclosing⟩ tokens =
      .ok ⟨inner, current :: enclosing⟩)
    (ready : inner.IsReady) (flushed : inner.flush = nodes.reverse) :
    takeAll limits ⟨current, enclosing⟩ (.openGroup :: tokens ++ [.closeGroup]) =
      .ok ⟨current.push (.sequence nodes), enclosing⟩ := by
  have finishes := Chain.finish_of_isReady ready
  rw [flushed, List.reverse_reverse] at finishes
  have opens : take limits ⟨current, enclosing⟩ .openGroup =
      .ok ⟨.empty, current :: enclosing⟩ := if_pos room
  have closes : take limits ⟨inner, current :: enclosing⟩ .closeGroup =
      .ok ⟨current.push (.sequence nodes), enclosing⟩ := by
    simp only [take, finishes, Except.map]
  rw [List.cons_append, takeAll_cons, opens]
  simp only [Except.bind]
  rw [takeAll_append, run]
  simp only [Except.bind]
  rw [takeAll_cons, closes]
  rfl

end Nesting

open Nesting

mutual

theorem ItemTokens.takeAll {limits : Limits} {depth : Nat} {tokens : List Token} {node : Node} :
    ItemTokens limits depth tokens node → ∀ (current : Chain) (enclosing : List Chain),
      enclosing.length = depth →
        Nesting.takeAll limits ⟨current, enclosing⟩ tokens =
          .ok ⟨current.push node, enclosing⟩
  | .leaf node, current, enclosing, _ => rfl
  | .group allowed inner, current, enclosing, sameDepth => by
      obtain ⟨chain, run, ready, flushed⟩ :=
        inner.takeAll .empty (current :: enclosing) (by trivial) (congrArg Nat.succ sameDepth)
      rw [← sameDepth] at allowed
      exact takeAll_group allowed run ready (by rw [flushed]; exact List.append_nil _)

theorem JoinedTokens.takeAll {limits : Limits} {depth : Nat} {tokens : List Token}
    {joined : List (Operator × Node)} :
    JoinedTokens limits depth tokens joined → ∀ (nodes : List Node) (first : Node)
      (before : List (Operator × Node)) (enclosing : List Chain), enclosing.length = depth →
        Nesting.takeAll limits ⟨.ofRun nodes first before, enclosing⟩ tokens =
          .ok ⟨.ofRun nodes first (before ++ joined), enclosing⟩
  | .nil, nodes, first, before, enclosing, _ => by
      rw [List.append_nil]
      rfl
  | .cons operator operand rest, nodes, first, before, enclosing, sameDepth => by
      obtain ⟨waiting, joins, pushed⟩ := Chain.exists_join (Chain.ofRun_isReady nodes first before)
        (by simp) operator
      rw [List.cons_append, takeAll_cons]
      simp only [take, joins, Except.map, Except.bind]
      rw [takeAll_append, operand.takeAll waiting enclosing sameDepth]
      simp only [Except.bind]
      rw [pushed, ← Chain.ofRun_append, rest.takeAll _ _ _ _ sameDepth, List.append_assoc]
      rfl

theorem SequenceTokens.takeAll {limits : Limits} {depth : Nat} {tokens : List Token}
    {nodes : List Node} :
    SequenceTokens limits depth tokens nodes → ∀ (current : Chain) (enclosing : List Chain),
      current.IsReady → enclosing.length = depth →
        ∃ chain, Nesting.takeAll limits ⟨current, enclosing⟩ tokens = .ok ⟨chain, enclosing⟩ ∧
          chain.IsReady ∧ chain.flush = nodes.reverse ++ current.flush
  | .nil, current, enclosing, ready, _ => ⟨current, rfl, ready, rfl⟩
  | @SequenceTokens.chain _ _ _ _ _ first joined _ begins goesOn rest,
      current, enclosing, ready, sameDepth => by
      have item := begins.takeAll current enclosing sameDepth
      have run := goesOn.takeAll current.flush first [] enclosing sameDepth
      obtain ⟨chain, later, stillReady, flushed⟩ :=
        rest.takeAll (.ofRun current.flush first joined) enclosing (Chain.ofRun_isReady ..)
          sameDepth
      refine ⟨chain, ?_, stillReady, ?_⟩
      · rw [takeAll_append, takeAll_append, item, Chain.push_of_isReady ready]
        exact (congrArg (Except.bind · _) run).trans later
      · rw [flushed, Chain.flush_ofRun, List.reverse_cons, List.append_assoc]
        rfl

end

/-! ## One level deeper -/

section Deeper

variable {limits wider : Limits}

mutual

/-- What stands inside some groups may stand inside one more where more are allowed. -/
theorem ItemTokens.deeper {depth : Nat} {tokens : List Token} {node : Node} :
    ItemTokens limits depth tokens node → limits.maxDepth < wider.maxDepth →
      ItemTokens wider (depth + 1) tokens node
  | .leaf node, _ => .leaf node
  | .group allowed inner, more => .group (Nat.lt_of_le_of_lt allowed more) (inner.deeper more)

theorem JoinedTokens.deeper {depth : Nat} {tokens : List Token}
    {joined : List (Operator × Node)} :
    JoinedTokens limits depth tokens joined → limits.maxDepth < wider.maxDepth →
      JoinedTokens wider (depth + 1) tokens joined
  | .nil, _ => .nil
  | .cons operator operand rest, more =>
      .cons operator (operand.deeper more) (rest.deeper more)

theorem SequenceTokens.deeper {depth : Nat} {tokens : List Token} {nodes : List Node} :
    SequenceTokens limits depth tokens nodes → limits.maxDepth < wider.maxDepth →
      SequenceTokens wider (depth + 1) tokens nodes
  | .nil, _ => .nil
  | .chain begins goesOn rest, more =>
      .chain (begins.deeper more) (goesOn.deeper more) (rest.deeper more)

end

end Deeper

/-! ## Runs come from derivations -/

theorem SequenceTokens.append {limits : Limits} {depth : Nat} {before after : List Token}
    {nodes more : List Node} :
    SequenceTokens limits depth before nodes → SequenceTokens limits depth after more →
      SequenceTokens limits depth (before ++ after) (nodes ++ more)
  | .nil, later => later
  | .chain begins goesOn rest, later => by
      have whole := SequenceTokens.chain begins goesOn (rest.append later)
      simpa only [List.append_assoc, List.cons_append] using whole

theorem JoinedTokens.append {limits : Limits} {depth : Nat} {before after : List Token}
    {joined more : List (Operator × Node)} :
    JoinedTokens limits depth before joined → JoinedTokens limits depth after more →
      JoinedTokens limits depth (before ++ after) (joined ++ more)
  | .nil, later => later
  | .cons operator operand rest, later => by
      have whole := JoinedTokens.cons operator operand (rest.append later)
      simpa only [List.append_assoc, List.cons_append] using whole

/--
The tokens that led to the chain of a group: settled nodes, an item behind them and the
operands joined to it, and at the end perhaps an operator.
-/
inductive Chain.Reads (limits : Limits) (depth : Nat) : List Token → Chain → Prop where
  | empty : Reads limits depth [] .empty
  | run {before item others : List Token} {nodes : List Node} {first : Node}
      {joined : List (Operator × Node)}
      (settled : SequenceTokens limits depth before nodes.reverse)
      (begins : ItemTokens limits depth item first)
      (goesOn : JoinedTokens limits depth others joined) :
      Reads limits depth (before ++ item ++ others) (.ofRun nodes first joined)
  | waiting {before item others : List Token} {nodes : List Node} {first : Node}
      {joined : List (Operator × Node)} {operator : Operator} {chain : Chain}
      (settled : SequenceTokens limits depth before nodes.reverse)
      (begins : ItemTokens limits depth item first)
      (goesOn : JoinedTokens limits depth others joined)
      (joins : (Chain.ofRun nodes first joined).join operator = .ok chain) :
      Reads limits depth (before ++ item ++ others ++ [.operator operator]) chain

namespace Chain.Reads

variable {limits : Limits} {depth : Nat} {tokens : List Token} {chain : Chain}

/-- An item behind a chain becomes its latest node, or the operand that was waited for. -/
theorem push (reads : Reads limits depth tokens chain) {item : List Token} {node : Node}
    (operand : ItemTokens limits depth item node) :
    Reads limits depth (tokens ++ item) (chain.push node) := by
  cases reads with
  | empty =>
      have settled : SequenceTokens limits depth [] ([] : List Node).reverse := .nil
      simpa using! Reads.run settled operand .nil
  | @run before first others nodes _ joined settled begins goesOn =>
      rw [Chain.push_of_isReady (Chain.ofRun_isReady ..), Chain.flush_ofRun]
      have whole := settled.append (.chain begins goesOn .nil)
      rw [← List.reverse_cons] at whole
      simpa using Reads.run whole operand .nil
  | @waiting before first others nodes start joined operator _ settled begins goesOn joins =>
      obtain ⟨waiting, same, pushed⟩ :=
        Chain.exists_join (Chain.ofRun_isReady nodes start joined) (by simp) operator
      rw [joins] at same
      cases same
      rw [pushed, ← Chain.ofRun_append]
      have longer := goesOn.append (.cons operator operand .nil)
      simpa using Reads.run settled begins longer

theorem join (reads : Reads limits depth tokens chain) {operator : Operator} {later : Chain}
    (joins : chain.join operator = .ok later) :
    Reads limits depth (tokens ++ [.operator operator]) later := by
  cases reads with
  | empty => cases joins
  | run settled begins goesOn => exact .waiting settled begins goesOn joins
  | waiting settled begins goesOn earlier =>
      obtain ⟨nodes, operands, rfl⟩ := Chain.waiting_of_join earlier
      cases joins

theorem finish (reads : Reads limits depth tokens chain) {nodes : List Node}
    (finishes : chain.finish = .ok nodes) : SequenceTokens limits depth tokens nodes := by
  cases reads with
  | empty =>
      cases finishes
      exact .nil
  | run settled begins goesOn =>
      rw [Chain.finish_of_isReady (Chain.ofRun_isReady ..), Chain.flush_ofRun] at finishes
      cases finishes
      have whole := settled.append (.chain begins goesOn .nil)
      simpa using whole
  | waiting settled begins goesOn joins =>
      obtain ⟨settledNodes, operands, rfl⟩ := Chain.waiting_of_join joins
      cases finishes

end Chain.Reads

/-- The tokens that led to open groups: those of every group stand behind its parenthesis. -/
inductive Nesting.Reads (limits : Limits) : List Token → Nesting → Prop where
  | root {tokens : List Token} {chain : Chain} (reads : chain.Reads limits 0 tokens) :
      Reads limits tokens ⟨chain, []⟩
  | group {outer inner : List Token} {chain around : Chain} {enclosing : List Chain}
      (outside : Reads limits outer ⟨around, enclosing⟩)
      (allowed : enclosing.length < limits.maxDepth)
      (reads : Chain.Reads limits (enclosing.length + 1) inner chain) :
      Reads limits (outer ++ .openGroup :: inner) ⟨chain, around :: enclosing⟩

namespace Nesting.Reads

variable {limits : Limits} {tokens : List Token}

/-- A change of the innermost chain is a change of the tokens behind its parenthesis. -/
theorem change {current later : Chain} {enclosing : List Chain} {more : List Token}
    (reads : Reads limits tokens ⟨current, enclosing⟩)
    (changes : ∀ inner, Chain.Reads limits enclosing.length inner current →
      Chain.Reads limits enclosing.length (inner ++ more) later) :
    Reads limits (tokens ++ more) ⟨later, enclosing⟩ := by
  cases reads with
  | root reads => exact .root (changes _ reads)
  | group outside allowed reads =>
      have deeper := Reads.group outside allowed (changes _ reads)
      simpa using deeper

/-- One more token keeps the account of the tokens. -/
theorem take {nesting later : Nesting} {token : Token} (reads : Reads limits tokens nesting)
    (takes : nesting.take limits token = .ok later) : Reads limits (tokens ++ [token]) later := by
  rcases nesting with ⟨current, enclosing⟩
  cases token with
  | leaf node =>
      cases takes
      exact reads.change fun inner within => within.push (.leaf node)
  | operator operator =>
      obtain ⟨chain, joins, rfl⟩ := Reading.map_eq_ok_iff.mp takes
      exact reads.change fun inner within => within.join joins
  | openGroup =>
      simp only [Nesting.take] at takes
      split at takes
      · next allowed =>
          cases takes
          exact .group reads allowed .empty
      · cases takes
  | closeGroup =>
      cases reads with
      | root reads => cases takes
      | @group outer inner _ around enclosing outside allowed reads =>
          obtain ⟨nodes, finishes, rfl⟩ := Reading.map_eq_ok_iff.mp takes
          have group := ItemTokens.group allowed (reads.finish finishes)
          have whole := outside.change fun _ within => within.push group
          simpa using whole

theorem takeAll {nesting later : Nesting} (reads : Reads limits tokens nesting)
    {more : List Token} (run : nesting.takeAll limits more = .ok later) :
    Reads limits (tokens ++ more) later := by
  induction more generalizing tokens nesting with
  | nil =>
      cases run
      rwa [List.append_nil]
  | cons token rest ih =>
      rw [takeAll_cons] at run
      obtain ⟨deeper, takes, run⟩ := Reading.bind_eq_ok_iff.mp run
      have whole := ih (reads.take takes) run
      rwa [List.append_assoc] at whole

theorem finish {nesting : Nesting} {tree : Node} (reads : Reads limits tokens nesting)
    (finishes : nesting.finish = .ok tree) :
    ∃ nodes, SequenceTokens limits 0 tokens nodes ∧ tree = .sequence nodes := by
  obtain ⟨nodes, same, closed⟩ := Reading.bind_eq_ok_iff.mp finishes
  cases reads with
  | root reads =>
      cases closed
      exact ⟨nodes, reads.finish same, rfl⟩
  | group outside allowed reads => cases closed

end Nesting.Reads

/-- The tokens of a sequence outside all groups are those that lead to its tree. -/
theorem sequenceTokens_iff_takeAll {limits : Limits} {tokens : List Token} {tree : Node} :
    (∃ nodes, SequenceTokens limits 0 tokens nodes ∧ tree = .sequence nodes) ↔
      (Nesting.root.takeAll limits tokens).bind Nesting.finish = .ok tree := by
  constructor
  · rintro ⟨nodes, derives, rfl⟩
    obtain ⟨chain, run, ready, flushed⟩ := derives.takeAll .empty [] trivial rfl
    rw [Nesting.root, run]
    simp only [Except.bind, Nesting.finish, Chain.finish_of_isReady ready, flushed]
    simp [Chain.empty, Chain.flush]
  · intro accepted
    obtain ⟨nesting, run, finishes⟩ := Reading.bind_eq_ok_iff.mp accepted
    have begun : Nesting.Reads limits [] .root := .root .empty
    exact (begun.takeAll run).finish finishes

end TextTemplate
