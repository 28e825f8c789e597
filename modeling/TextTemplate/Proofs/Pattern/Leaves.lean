import TextTemplate.Count.Node
import TextTemplate.Proofs.Pattern.RoundTrip
import TextTemplate.Proofs.Render.Names

/-!
# Patterns for one leaf

An operator leaves an alternation or a permutation behind and a group a sequence, so a sequence
of a single leaf has no other token than that leaf.  For literal text this tells all patterns that
are read to it, and the escaped text is one of them.
-/

namespace TextTemplate

open PatternWriter

variable {limits : Limits}

/-! ## Sequences of one leaf -/

/-- A run of two operands or more is a node of its own. -/
theorem isSome_operator?_extendRun (operator : Operator) (first second : Node)
    (others : List Node) (joined : List (Operator × Node)) :
    (extendRun operator (first :: second :: others) joined).operator?.isSome = true := by
  induction joined generalizing operator first second others with
  | nil => rw [extendRun, Node.operator?_combine, Option.isSome_some]
  | cons operand rest ih =>
      rcases operand with ⟨next, node⟩
      rw [extendRun]
      split
      · exact ih operator first second (others ++ [node])
      · exact ih next _ node []

/-- The tokens of a sequence that holds nothing but a leaf are that leaf. -/
theorem SequenceTokens.eq_leaf {depth : Nat} {tokens : List Token} {node : Node}
    (derives : SequenceTokens limits depth tokens [node]) (noOperator : node.operator? = none)
    (noGroup : ∀ nodes, node ≠ .sequence nodes) : tokens = [.leaf node] := by
  generalize whole : [node] = nodes at derives
  cases derives with
  | nil => cases whole
  | @chain depth item others later first joined nodes begins goesOn rest =>
      obtain ⟨isNode, rfl⟩ := List.cons.inj whole
      cases rest
      cases goesOn with
      | nil =>
          cases begins with
          | leaf _ =>
              rw [isNode]
              rfl
          | group allowed inner => exact absurd isNode (noGroup _)
      | @cons _ _ _ second joined operator operand rest =>
          have joins := isSome_operator?_extendRun operator first second [] joined
          rw [← chainNode, ← isNode, noOperator] at joins
          cases joins

/-- A pattern is read to one leaf exactly when it writes that leaf as its only token. -/
theorem parse_eq_ok_leaf_iff {pattern : List Char} {node : Node}
    (noOperator : node.operator? = none) (noGroup : ∀ nodes, node ≠ .sequence nodes) :
    parse limits pattern = .ok (.sequence [node]) ↔ WritesTokens limits pattern [.leaf node] := by
  rw [parse_eq_ok_iff_describes]
  constructor
  · rintro ⟨tokens, nodes, writes, derives, same⟩
    cases same
    rwa [derives.eq_leaf noOperator noGroup] at writes
  · intro writes
    exact ⟨_, _, writes, .chain (.leaf node) .nil .nil, rfl⟩

/-! ## Literal text -/

/-- The patterns for literal text are its writings. -/
theorem parse_eq_ok_literal_iff {pattern text : List Char} :
    parse limits pattern = .ok (.sequence [.literal text]) ↔
      text ≠ [] ∧ WritesLiteral pattern text := by
  have single := @parse_eq_ok_leaf_iff limits pattern (.literal text) rfl nofun
  rw [single]
  constructor
  · intro writes
    cases writes with
    | literal writes notEmpty ends later =>
        cases later
        rw [List.append_nil]
        refine ⟨?_, writes⟩
        rintro rfl
        cases writes
        exact notEmpty rfl
  · rintro ⟨someText, writes⟩
    have notEmpty : pattern ≠ [] := by
      rintro rfl
      cases writes
      exact someText rfl
    rw [← List.append_nil pattern]
    exact .literal writes notEmpty endsLiteral_nil .nil

/-- Escaped text is read back; no text at all makes an empty sequence. -/
theorem parse_escapeText (limits : Limits) (text : List Char) :
    parse limits (escapeText text) =
      .ok (.sequence (if text = [] then [] else [.literal text])) := by
  by_cases empty : text = []
  · subst empty
    exact parse_eq_ok_iff_describes.mpr ⟨[], [], .nil, .nil, rfl⟩
  · rw [if_neg empty]
    exact parse_eq_ok_literal_iff.mpr ⟨empty, writesLiteral_literalCharacter text⟩

/--
A pattern is read to some literal text alone exactly when it is a writing of that text.  Escaped
text is read to a tree that is rendered as the text, for all bindings, without asking the provider
for anything, and that counts once.
-/
theorem literal_patterns_are_writings {σ : Type} (limits : Limits) (provider : Provider σ)
    (session : Session σ) (text : List Char) :
    (∀ pattern, parse limits pattern = .ok (.sequence [.literal text]) ↔
      text ≠ [] ∧ WritesLiteral pattern text) ∧
      ∃ tree, parse limits (escapeText text) = .ok tree ∧
        session.follow provider tree.render = (text, session) ∧
        session.draws provider tree.render = [] ∧
        session.follow provider tree.count = (.ok 1, session) ∧
        session.draws provider tree.count = [] := by
  refine ⟨fun pattern => parse_eq_ok_literal_iff, _, parse_escapeText limits text, ?_⟩
  by_cases empty : text = []
  · subst empty
    exact ⟨rfl, rfl, rfl, rfl⟩
  · rw [if_neg empty]
    have rendered : (Node.sequence [.literal text]).render = .done text := by
      simp [Node.render, Node.renderEach, Recipe.concat, Recipe.concatBehind, Recipe.bind]
    rw [rendered]
    exact ⟨rfl, rfl, rfl, rfl⟩

end TextTemplate
