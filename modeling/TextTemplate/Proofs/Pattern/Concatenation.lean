import TextTemplate.Proofs.Pattern.NormalForm

/-!
# Concatenated patterns

The tokens of two patterns, one behind the other, are tokens of the two in one unless literal
text meets literal text.  Whether it does shows in the trees: the first ends with literal text
exactly when its tokens do, and the second begins with it exactly when its tokens do.
-/

namespace TextTemplate

variable {limits : Limits}

/-! ## Writings -/

/-- Every token is written by a character at least. -/
theorem WritesTokens.eq_nil {tokens : List Token} (writes : WritesTokens limits [] tokens) :
    tokens = [] := by
  cases tokens with
  | nil => rfl
  | cons token rest =>
      obtain ⟨_, _, _, impossible, -⟩ := readToken_complete writes
      cases impossible

/-- Literal text may end in front of a pattern that does not begin with literal text. -/
theorem WritesTokens.endsLiteral {written : List Char} {tokens : List Token}
    (writes : WritesTokens limits written tokens)
    (noLiteral : ∀ token ∈ tokens.head?, token.isLiteral = false) : EndsLiteral written := by
  cases writes with
  | nil => exact endsLiteral_nil
  | literal writes notEmpty ends later => cases noLiteral _ rfl
  | characterSet writes notEmpty repeats later => exact endsLiteral_cons_iff.mpr rfl
  | reference unbraced valid later => exact endsLiteral_cons_iff.mpr rfl
  | openGroup later => exact endsLiteral_cons_iff.mpr rfl
  | closeGroup later => exact endsLiteral_cons_iff.mpr rfl
  | operator operator later => exact endsLiteral_cons_iff.mpr (isMeta_symbol operator)

/-- Two patterns write the tokens of both, unless literal text would go on with literal text. -/
theorem WritesTokens.append {first second : List Char} {before after : List Token}
    (writes : WritesTokens limits first before) (more : WritesTokens limits second after)
    (apart : Token.LiteralsApart (before ++ after)) :
    WritesTokens limits (first ++ second) (before ++ after) := by
  induction writes with
  | nil => exact more
  | @literal written text rest tokens writes notEmpty ends later ih =>
      have stillEnds : EndsLiteral (rest ++ second) := by
        cases rest with
        | nil =>
            obtain rfl := later.eq_nil
            apply more.endsLiteral
            intro next isNext
            have behind := (List.isChain_cons.mp apart).1 next isNext
            simpa [Token.isLiteral, Node.isLiteral] using behind
        | cons character tail => exact endsLiteral_cons_iff.mpr (endsLiteral_cons_iff.mp ends)
      simpa using WritesTokens.literal writes notEmpty stillEnds (ih apart.tail)
  | characterSet writes notEmpty repeats later ih =>
      simpa using WritesTokens.characterSet writes notEmpty repeats (ih apart.tail)
  | reference unbraced valid later ih =>
      simpa using WritesTokens.reference unbraced valid (ih apart.tail)
  | openGroup later ih => exact .openGroup (ih apart.tail)
  | closeGroup later ih => exact .closeGroup (ih apart.tail)
  | operator operator later ih => exact .operator operator (ih apart.tail)

/-! ## Ends of derivations -/

/-- An item whose tokens begin with literal text is that text. -/
theorem ItemTokens.isLiteral_of_head? {depth : Nat} {item behind : List Token} {node : Node}
    {token : Token} (operand : ItemTokens limits depth item node)
    (isFirst : token ∈ (item ++ behind).head?) (literal : token.isLiteral = true) :
    node.isLiteral = true := by
  cases operand with
  | leaf node =>
      cases isFirst
      exact literal
  | group allowed inner =>
      cases isFirst
      cases literal

/-- An item whose tokens end with literal text is that text. -/
theorem ItemTokens.isLiteral_of_getLast? {depth : Nat} {before item : List Token} {node : Node}
    {token : Token} (operand : ItemTokens limits depth item node)
    (isLast : token ∈ (before ++ item).getLast?) (literal : token.isLiteral = true) :
    node.isLiteral = true := by
  cases operand with
  | leaf node =>
      rw [List.getLast?_concat] at isLast
      cases isLast
      exact literal
  | group allowed inner =>
      rw [← List.append_assoc, List.getLast?_concat] at isLast
      cases isLast
      cases literal

/-- Operands whose tokens end with literal text end with that text. -/
theorem JoinedTokens.exists_getLast? {depth : Nat} {tokens : List Token}
    {joined : List (Operator × Node)} {token : Token} :
    JoinedTokens limits depth tokens joined → token ∈ tokens.getLast? →
      token.isLiteral = true → ∃ operand ∈ joined.getLast?, operand.2.isLiteral = true
  | .cons operator operand rest, isLast, literal => by
      rw [List.getLast?_append] at isLast
      rcases Option.or_eq_some_iff.mp isLast with inLater | ⟨nothing, inOperand⟩
      · obtain ⟨ending, isEnding, ends⟩ := rest.exists_getLast? inLater literal
        refine ⟨ending, ?_, ends⟩
        rw [List.getLast?_cons, isEnding]
        rfl
      · obtain rfl := List.getLast?_eq_none_iff.mp nothing
        cases rest
        rw [← List.singleton_append] at inOperand
        exact ⟨_, rfl, operand.isLiteral_of_getLast? inOperand literal⟩

section Chains

variable {depth : Nat} {item others : List Token} {first : Node}
  {joined : List (Operator × Node)} {token : Token}

/-- A chain whose tokens begin with literal text begins with that text. -/
theorem firstItem_chainNode_isLiteral {later : List Token}
    (begins : ItemTokens limits depth item first)
    (goesOn : JoinedTokens limits depth others joined)
    (normal : AreNormalTokens limits (item ++ others))
    (isFirst : token ∈ (item ++ later).head?) (literal : token.isLiteral = true) :
    (chainNode first joined).firstItem.isLiteral = true := by
  have isItem := (begins.isItem normal.left).1
  have areItems := (goesOn.areItems normal.right).1
  rw [(chainNode_spec isItem areItems).2.1]
  exact begins.isLiteral_of_head? isFirst literal

/-- A chain whose tokens end with literal text ends with that text. -/
theorem lastItem_chainNode_isLiteral (begins : ItemTokens limits depth item first)
    (goesOn : JoinedTokens limits depth others joined)
    (normal : AreNormalTokens limits (item ++ others))
    (isLast : token ∈ (item ++ others).getLast?) (literal : token.isLiteral = true) :
    (chainNode first joined).lastItem.isLiteral = true := by
  have isItem := (begins.isItem normal.left).1
  have areItems := (goesOn.areItems normal.right).1
  rw [(chainNode_spec isItem areItems).2.2]
  rw [List.getLast?_append] at isLast
  rcases Option.or_eq_some_iff.mp isLast with inOthers | ⟨alone, inFirst⟩
  · obtain ⟨operand, isOperand, ends⟩ := goesOn.exists_getLast? inOthers literal
    rw [isOperand]
    exact ends
  · obtain rfl := List.getLast?_eq_none_iff.mp alone
    cases goesOn
    rw [← List.nil_append item] at inFirst
    exact begins.isLiteral_of_getLast? inFirst literal

end Chains

theorem SequenceTokens.eq_nil {depth : Nat} {tokens : List Token} {nodes : List Node}
    (derives : SequenceTokens limits depth tokens nodes) (nothing : tokens = []) :
    nodes = [] := by
  cases derives with
  | nil => rfl
  | chain begins goesOn rest => cases begins <;> simp at nothing

/-- A sequence whose tokens begin with literal text begins with that text. -/
theorem SequenceTokens.exists_head? {depth : Nat} {tokens : List Token} {nodes : List Node}
    {token : Token} (derives : SequenceTokens limits depth tokens nodes)
    (normal : AreNormalTokens limits tokens) (isFirst : token ∈ tokens.head?)
    (literal : token.isLiteral = true) :
    ∃ node ∈ nodes.head?, node.firstItem.isLiteral = true := by
  cases derives with
  | nil => cases isFirst
  | chain begins goesOn rest =>
      rw [List.append_assoc] at isFirst
      exact ⟨_, rfl, firstItem_chainNode_isLiteral begins goesOn normal.left isFirst literal⟩

/-- A sequence whose tokens end with literal text ends with that text. -/
theorem SequenceTokens.exists_getLast? {depth : Nat} {tokens : List Token} {nodes : List Node}
    {token : Token} :
    SequenceTokens limits depth tokens nodes → AreNormalTokens limits tokens →
      token ∈ tokens.getLast? → token.isLiteral = true →
        ∃ node ∈ nodes.getLast?, node.lastItem.isLiteral = true
  | .chain begins goesOn rest, normal, isLast, literal => by
      rw [List.getLast?_append] at isLast
      rcases Option.or_eq_some_iff.mp isLast with inLater | ⟨nothing, inChain⟩
      · obtain ⟨node, isNode, ends⟩ := rest.exists_getLast? normal.right inLater literal
        refine ⟨node, ?_, ends⟩
        rw [List.getLast?_cons, isNode]
        rfl
      · obtain rfl := rest.eq_nil (List.getLast?_eq_none_iff.mp nothing)
        exact ⟨_, List.getLast?_singleton,
          lastItem_chainNode_isLiteral begins goesOn normal.left inChain literal⟩

/-! ## Trees -/

theorem Node.literalsApart_iff_isChain {nodes : List Node} :
    Node.literalsApart nodes = true ↔ nodes.IsChain fun node next =>
      ¬ (node.lastItem.isLiteral = true ∧ next.firstItem.isLiteral = true) := by
  induction nodes with
  | nil => simp [literalsApart]
  | cons node rest ih =>
      cases rest with
      | nil => simp [literalsApart]
      | cons next rest => simp [literalsApart, ih, Decidable.imp_iff_not_or]

/--
The pattern that two patterns make together is read to the nodes of both, one after the other,
exactly when the first does not end with literal text or the second does not begin with any.
-/
theorem parse_append_iff {first second : List Char} {nodes more : List Node}
    (read : parse limits first = .ok (.sequence nodes))
    (readMore : parse limits second = .ok (.sequence more)) :
    parse limits (first ++ second) = .ok (.sequence (nodes ++ more)) ↔
      ∀ last ∈ nodes.getLast?, ∀ next ∈ more.head?,
        ¬ (last.lastItem.isLiteral = true ∧ next.firstItem.isLiteral = true) := by
  constructor
  · intro readBoth
    have normal := isNormal_of_parse readBoth
    rw [Node.isNormal, Node.isNormalItem, Bool.and_eq_true] at normal
    exact (List.isChain_append.mp (Node.literalsApart_iff_isChain.mp normal.1)).2.2
  · intro apart
    obtain ⟨before, _, writes, derives, ⟨⟩⟩ := parse_eq_ok_iff_describes.mp read
    obtain ⟨after, _, writesMore, derivesMore, ⟨⟩⟩ := parse_eq_ok_iff_describes.mp readMore
    have tokensApart : Token.LiteralsApart (before ++ after) := by
      refine List.isChain_append.mpr ⟨writes.literalsApart, writesMore.literalsApart, ?_⟩
      rintro last isLast next isNext ⟨endsLiteral, beginsLiteral⟩
      obtain ⟨node, isNode, ends⟩ := derives.exists_getLast? writes.areNormal isLast endsLiteral
      obtain ⟨other, isOther, begins⟩ :=
        derivesMore.exists_head? writesMore.areNormal isNext beginsLiteral
      exact apart node isNode other isOther ⟨ends, begins⟩
    apply parse_eq_ok_iff_describes.mpr
    exact ⟨before ++ after, nodes ++ more, writes.append writesMore tokensApart,
      derives.append derivesMore, rfl⟩

/-- Neither run takes an operand of the other; with the literal text last, the two would touch. -/
theorem parse_append_iff_of_runs :
    let run : Node := .alternation [.literal ['x'], .characterSet ['a'] .once]
    let turned : Node := .alternation [.characterSet ['a'] .once, .literal ['x']]
    let more : Node := .permutation [.literal ['b'], .sequence [.literal ['c']]]
    parse {} "x|[a]b&(c)".toList = .ok (.sequence [run, more]) ∧
      parse {} "[a]|xb&(c)".toList ≠ .ok (.sequence [turned, more]) := by
  intro run turned more
  have readRun : parse {} "x|[a]".toList = .ok (.sequence [run]) := by decide +kernel
  have readTurned : parse {} "[a]|x".toList = .ok (.sequence [turned]) := by decide +kernel
  have readMore : parse {} "b&(c)".toList = .ok (.sequence [more]) := by decide +kernel
  refine ⟨(parse_append_iff readRun readMore).mpr ?_, ?_⟩
  · rintro _ ⟨⟩ _ ⟨⟩ ⟨endsLiteral, -⟩
    cases endsLiteral
  · intro both
    exact (parse_append_iff readTurned readMore).mp both turned rfl more rfl ⟨rfl, rfl⟩

end TextTemplate
