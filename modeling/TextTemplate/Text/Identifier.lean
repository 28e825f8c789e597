import TextTemplate.Text.Letter
import TextTemplate.Text.DecimalDigit

/-!
# Identifiers

The names that a pattern may refer to: a letter or an underscore, then letters, decimal
digits and underscores, of any script.
-/

namespace TextTemplate

namespace Identifier

/-- The rule for identifiers, written as a regular expression. -/
def rule : String := "^[\\p\x7bL\x7d_][\\p\x7bL\x7d\\p\x7bNd\x7d_]*$"

/-- Characters that may begin an identifier. -/
def canStart (character : Char) : Bool :=
  character == '_' || isLetter character

/-- Characters that may follow the first one. -/
def canContinue (character : Char) : Bool :=
  canStart character || isDecimalDigit character

end Identifier

/-- Whether a name may stand in a reference. -/
def isIdentifier : List Char → Bool
  | [] => false
  | first :: rest => Identifier.canStart first && rest.all Identifier.canContinue

end TextTemplate
