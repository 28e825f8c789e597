import TextTemplate.Pattern.CharacterSet
import TextTemplate.Pattern.Literal
import TextTemplate.Pattern.Reference

/-!
# Tokens

A pattern is a succession of leaves, parentheses and operators.  Reading a token always
uses up part of the pattern.
-/

namespace TextTemplate

/-- The units of a pattern above single characters. -/
inductive Token where
  /-- Literal text, a character set or a reference. -/
  | leaf (node : Node)
  | openGroup
  | closeGroup
  | operator (operator : Operator)
deriving Repr

/-- Reads the token that begins with `first`. -/
def readToken (limits : Limits) (first : Char) (rest : List Char) : Reading Token :=
  match first, rest with
  | '[', text => (readCharacterSet limits text).map fun (node, after) => (.leaf node, after)
  | '(', after => .ok (.openGroup, after)
  | ')', after => .ok (.closeGroup, after)
  | '|', after => .ok (.operator .alternate, after)
  | '&', after => .ok (.operator .permute, after)
  | '$', '\x7b' :: text =>
      (readReference text).map fun (name, after) => (.leaf (.reference name), after)
  | _, _ =>
      if isMeta first then .error ⟨.strayMeta first, first :: rest⟩
      else
        (readLiteral (first :: rest)).map fun (text, after) => (.leaf (.literal text), after)

/-- A character without structural meaning begins literal text. -/
theorem readToken_of_ordinary (limits : Limits) {first : Char} (rest : List Char)
    (ordinary : isMeta first = false) :
    readToken limits first rest =
      (readLiteral (first :: rest)).map fun (text, after) => (.leaf (.literal text), after) := by
  unfold readToken
  split <;> first
    | cases ordinary
    | simp only [ordinary, Bool.false_eq_true, ↓reduceIte]

theorem readToken_leaves (limits : Limits) (first : Char) (rest : List Char) :
    LeavesAtMost rest.length (readToken limits first rest) := by
  unfold readToken
  split
  · exact (readCharacterSet_leaves limits _).map fun _ _ => rfl
  · exact .ok (Nat.le_refl _)
  · exact .ok (Nat.le_refl _)
  · exact .ok (Nat.le_refl _)
  · exact .ok (Nat.le_refl _)
  · next text =>
      exact ((readReference_leaves text).map fun _ _ => rfl).mono (Nat.le_succ _)
  · split
    · exact .error _
    · next ordinary =>
        exact (readLiteral_cons_leaves first rest (by simpa using ordinary)).map
          fun _ _ => rfl

end TextTemplate
