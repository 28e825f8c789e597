import TextTemplate.Pattern.Reading
import TextTemplate.Text.Identifier

/-!
# References

A reference is an identifier in braces behind a dollar sign.
-/

namespace TextTemplate

/-- Reads a name behind the opening brace of a reference, up to the closing one. -/
def readReference (text : List Char) : Reading (List Char) :=
  let name := text.takeWhile (· != '\x7d')
  match text.dropWhile (· != '\x7d') with
  | [] => .error ⟨.unterminatedReference, []⟩
  | closing :: after =>
      if isIdentifier name then .ok (name, after)
      else .error ⟨.badIdentifier name, closing :: after⟩

theorem readReference_leaves (text : List Char) :
    LeavesAtMost text.length (readReference text) := by
  unfold readReference
  dsimp only
  split
  · exact .error _
  · next closing after same =>
      split
      · exact .ok (by
          have whole := (List.dropWhile_sublist (p := (· != '\x7d')) (l := text)).length_le
          rw [same, List.length_cons] at whole
          omega)
      · exact .error _

end TextTemplate
