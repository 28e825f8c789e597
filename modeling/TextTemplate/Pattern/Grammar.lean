import TextTemplate.Pattern.Token

/-!
# The grammar of patterns

Patterns have two levels.  On the lower one a text is written as a list of tokens; on the
upper one a list of tokens is divided into chains of items, where a group is an item and
holds a list of its own.  Nothing here refers to how a pattern is read.
-/

namespace TextTemplate

/-! ## Tokens -/

/-- A writing of literal text: characters as they stand or behind a backslash. -/
inductive WritesLiteral : (written text : List Char) → Prop where
  | nil : WritesLiteral [] []
  | plain {character : Char} {written text : List Char}
      (ordinary : isMeta character = false) (unescaped : character ≠ '\\')
      (rest : WritesLiteral written text) :
      WritesLiteral (character :: written) (character :: text)
  | escaped {written text : List Char} (character : Char)
      (rest : WritesLiteral written text) :
      WritesLiteral ('\\' :: character :: written) (character :: text)

/-- A writing of the members of a set, element by element. -/
inductive WritesMembers (limits : Limits) : (written members : List Char) → Prop where
  | nil : WritesMembers limits [] []
  | escaped {written members : List Char} (character : Char)
      (rest : WritesMembers limits written members) :
      WritesMembers limits ('\\' :: character :: written) (escapedMembers character ++ members)
  | range {first second : Char} {range written members : List Char}
      (firstOrdinary : isMeta first = false) (unescaped : first ≠ '\\')
      (secondOrdinary : isMeta second = false)
      (expands : expandRange limits.maxRangeSpan first second = .ok range)
      (rest : WritesMembers limits written members) :
      WritesMembers limits (first :: '-' :: second :: written) (range ++ members)
  | single {character : Char} {written members : List Char}
      (ordinary : isMeta character = false) (unescaped : character ≠ '\\')
      (noRange : written.head? ≠ some '-')
      (rest : WritesMembers limits written members) :
      WritesMembers limits (character :: written) (character :: members)

/-- Every element adds a member at least. -/
theorem WritesMembers.members_eq_nil_iff {limits : Limits} {written members : List Char}
    (writes : WritesMembers limits written members) : members = [] ↔ written = [] := by
  cases writes with
  | nil => simp
  | escaped character rest => simp [escapedMembers_ne_nil]
  | range firstOrdinary unescaped secondOrdinary expands rest =>
      simp [expandRange_ne_nil expands]
  | single ordinary unescaped noRange rest => simp

/-- A writing of a number of a quantifier; no digits write zero. -/
def WritesNumber (written : List Char) (number : Nat) : Prop :=
  (∀ digit ∈ written, digit.isDigit = true) ∧ Nat.ofDigitChars 10 written 0 = number

/-- A writing of a repetition; no quantifier means one character. -/
inductive WritesRepetition (limits : Limits) : (written : List Char) → Repetition → Prop where
  | once : WritesRepetition limits [] .once
  | exactly {written : List Char} {count : Nat} (digits : WritesNumber written count)
      (fits : count < wordSize) (allowed : count ≤ limits.maxRepeat) :
      WritesRepetition limits ('\x7b' :: written ++ ['\x7d']) (.exactly count)
  | between {lower upper : List Char} {separator : Char} {low high : Nat}
      (lowerDigits : WritesNumber lower low) (parted : isSeparator separator = true)
      (upperDigits : WritesNumber upper high) (named : upper ≠ [])
      (ordered : low ≤ high) (fits : high < wordSize) (allowed : high ≤ limits.maxRepeat) :
      WritesRepetition limits ('\x7b' :: lower ++ separator :: upper ++ ['\x7d'])
        (.between low high)

/-- Literal text ends before a structural character or at the end. -/
def EndsLiteral (rest : List Char) : Prop :=
  ∀ character tail, rest = character :: tail → isMeta character = true

theorem endsLiteral_nil : EndsLiteral [] := by
  intro character tail impossible
  cases impossible

theorem endsLiteral_cons_iff {character : Char} {tail : List Char} :
    EndsLiteral (character :: tail) ↔ isMeta character = true := by
  constructor
  · intro ends
    exact ends character tail rfl
  · rintro structural _ _ ⟨⟩
    exact structural

/-- A writing of a list of tokens. -/
inductive WritesTokens (limits : Limits) : (written : List Char) → List Token → Prop where
  | nil : WritesTokens limits [] []
  | literal {written text rest : List Char} {tokens : List Token}
      (writes : WritesLiteral written text) (notEmpty : written ≠ []) (ends : EndsLiteral rest)
      (later : WritesTokens limits rest tokens) :
      WritesTokens limits (written ++ rest) (.leaf (.literal text) :: tokens)
  | characterSet {written members quantifier rest : List Char} {repetition : Repetition}
      {tokens : List Token}
      (writes : WritesMembers limits written members) (notEmpty : written ≠ [])
      (repeats : WritesRepetition limits quantifier repetition)
      (later : WritesTokens limits rest tokens) :
      WritesTokens limits ('[' :: written ++ ']' :: quantifier ++ rest)
        (.leaf (.characterSet members repetition) :: tokens)
  | reference {name rest : List Char} {tokens : List Token}
      (unbraced : '\x7d' ∉ name) (valid : isIdentifier name = true)
      (later : WritesTokens limits rest tokens) :
      WritesTokens limits ('$' :: '\x7b' :: name ++ '\x7d' :: rest)
        (.leaf (.reference name) :: tokens)
  | openGroup {rest : List Char} {tokens : List Token}
      (later : WritesTokens limits rest tokens) :
      WritesTokens limits ('(' :: rest) (.openGroup :: tokens)
  | closeGroup {rest : List Char} {tokens : List Token}
      (later : WritesTokens limits rest tokens) :
      WritesTokens limits (')' :: rest) (.closeGroup :: tokens)
  | operator {rest : List Char} {tokens : List Token} (operator : Operator)
      (later : WritesTokens limits rest tokens) :
      WritesTokens limits (operator.symbol :: rest) (.operator operator :: tokens)

/-! ## Chains and groups -/

/--
The node for a run of operands and the operands that further operators add: the same
operator goes on with the run, and another one begins a run with the node so far.
-/
def extendRun (operator : Operator) (operands : List Node) : List (Operator × Node) → Node
  | [] => operator.combine operands
  | (next, node) :: rest =>
      if next = operator then extendRun operator (operands ++ [node]) rest
      else extendRun next [operator.combine operands, node] rest

/-- The node for a first operand and those that operators add to it. -/
def chainNode (first : Node) : List (Operator × Node) → Node
  | [] => first
  | (operator, second) :: rest => extendRun operator [first, second] rest

mutual

/-- The tokens of an item inside so many groups. -/
inductive ItemTokens (limits : Limits) : (depth : Nat) → List Token → Node → Prop where
  | leaf {depth : Nat} (node : Node) : ItemTokens limits depth [.leaf node] node
  | group {depth : Nat} {tokens : List Token} {nodes : List Node}
      (allowed : depth < limits.maxDepth)
      (inner : SequenceTokens limits (depth + 1) tokens nodes) :
      ItemTokens limits depth (.openGroup :: tokens ++ [.closeGroup]) (.sequence nodes)

/-- The tokens of operators, each with the item to its right. -/
inductive JoinedTokens (limits : Limits) :
    (depth : Nat) → List Token → List (Operator × Node) → Prop where
  | nil {depth : Nat} : JoinedTokens limits depth [] []
  | cons {depth : Nat} {item later : List Token} {node : Node}
      {joined : List (Operator × Node)} (operator : Operator)
      (operand : ItemTokens limits depth item node)
      (rest : JoinedTokens limits depth later joined) :
      JoinedTokens limits depth (.operator operator :: item ++ later)
        ((operator, node) :: joined)

/-- The tokens of a sequence of chains. -/
inductive SequenceTokens (limits : Limits) : (depth : Nat) → List Token → List Node → Prop where
  | nil {depth : Nat} : SequenceTokens limits depth [] []
  | chain {depth : Nat} {item others later : List Token} {first : Node}
      {joined : List (Operator × Node)} {nodes : List Node}
      (begins : ItemTokens limits depth item first)
      (goesOn : JoinedTokens limits depth others joined)
      (rest : SequenceTokens limits depth later nodes) :
      SequenceTokens limits depth (item ++ others ++ later) (chainNode first joined :: nodes)

end

/-- A pattern describes a tree: it writes tokens that form a sequence outside all groups. -/
def Describes (limits : Limits) (pattern : List Char) (tree : Node) : Prop :=
  ∃ tokens nodes, WritesTokens limits pattern tokens ∧
    SequenceTokens limits 0 tokens nodes ∧ tree = .sequence nodes

end TextTemplate
