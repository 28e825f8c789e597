import TextTemplate.Pattern.Limits
import TextTemplate.Pattern.Reading

/-!
# Literal text in a pattern

Literal text runs up to the next structural character or the end.  A backslash takes the
character behind it as it stands, whatever it is.
-/

namespace TextTemplate

/-- Reads literal text from the front of a pattern, without its escapes. -/
def readLiteral : List Char → Reading (List Char)
  | [] => .ok ([], [])
  | ['\\'] => .error ⟨.danglingEscape, []⟩
  | '\\' :: escaped :: rest =>
      (readLiteral rest).map fun (text, after) => (escaped :: text, after)
  | character :: rest =>
      if isMeta character then .ok ([], character :: rest)
      else (readLiteral rest).map fun (text, after) => (character :: text, after)

theorem readLiteral_leaves (text : List Char) :
    LeavesAtMost text.length (readLiteral text) := by
  fun_induction readLiteral text with
  | case1 => exact .ok (Nat.le_refl _)
  | case2 => exact .error _
  | case3 escaped rest ih =>
      exact (ih.map fun _ _ => rfl).mono (by simp only [List.length_cons]; omega)
  | case4 character rest => exact .ok (Nat.le_refl _)
  | case5 character rest _ _ _ ih =>
      exact (ih.map fun _ _ => rfl).mono (by simp only [List.length_cons]; omega)

/-- Literal text that begins with an ordinary character uses up at least that character. -/
theorem readLiteral_cons_leaves (first : Char) (rest : List Char)
    (ordinary : isMeta first = false) :
    LeavesAtMost rest.length (readLiteral (first :: rest)) := by
  generalize same : first :: rest = text
  fun_cases readLiteral text with
  | case1 => cases same
  | case2 => exact .error _
  | case3 escaped later =>
      cases same
      exact ((readLiteral_leaves later).map fun _ _ => rfl).mono (Nat.le_succ _)
  | case4 character later _ _ structural =>
      cases same
      rw [ordinary] at structural
      cases structural
  | case5 character later =>
      cases same
      exact (readLiteral_leaves rest).map fun _ _ => rfl

end TextTemplate
