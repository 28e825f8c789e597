import TextTemplate.Text.Position
import TextTemplate.Tree.Node

/-!
# Syntax errors

A fault says what is wrong with a pattern, independently of the words used for it.  An error
is a fault and the place in the pattern where it was noticed.
-/

namespace TextTemplate

/-- What can be wrong with a pattern. -/
inductive SyntaxFault where
  /-- A group opens inside as many groups as may nest. -/
  | nestedTooDeep (limit : Nat)
  /-- A group closes that never opened. -/
  | extraClosing
  /-- The pattern ends inside a group. -/
  | missingClosing
  /-- A structural character stands where it means nothing. -/
  | strayMeta (character : Char)
  /-- An operator has nothing to its left. -/
  | noLeftOperand (operator : Operator)
  /-- An operator has nothing to its right. -/
  | noRightOperand (operator : Operator)
  /-- The pattern ends behind a backslash. -/
  | danglingEscape
  /-- The pattern ends inside a class. -/
  | unterminatedClass
  /-- A structural character stands inside a class. -/
  | strayMetaInClass (character : Char)
  /-- A range inside a class has no usable second end. -/
  | badRangeEnd
  /-- The ends of a range lie too far apart. -/
  | rangeTooLarge (first second : Char) (span : Nat)
  /-- A class has no member. -/
  | emptyClass
  /-- The pattern ends inside a quantifier. -/
  | unterminatedQuantifier
  /-- A quantifier separates its bounds twice. -/
  | secondSeparator
  /-- A quantifier names no upper bound. -/
  | missingUpperBound
  /-- A quantifier holds something other than digits. -/
  | nonDigit (character : Char)
  /-- A number of a quantifier does not fit in 64 bits. -/
  | numberTooLarge (digits : List Char)
  /-- A quantifier asks for more than is allowed. -/
  | repetitionTooLarge (count limit : Nat)
  /-- The bounds of a quantifier are in the wrong order. -/
  | boundsReversed (low high : Nat)
  /-- The pattern ends inside a reference. -/
  | unterminatedReference
  /-- A reference holds a name that is no identifier. -/
  | badIdentifier (name : List Char)
deriving DecidableEq, Repr

namespace SyntaxFault

/-- The words for a fault; characters and names of the pattern are shown as they stand. -/
def message : SyntaxFault → String
  | .nestedTooDeep limit => s!"groups nested deeper than {limit} levels"
  | .extraClosing => "extra closing parenthesis"
  | .missingClosing => "missing closing parenthesis"
  | .strayMeta character => s!"un-escaped special character: {character}"
  | .noLeftOperand operator =>
      "operator " ++ toString operator.symbol ++ " with no left operand"
  | .noRightOperand operator =>
      "operator " ++ toString operator.symbol ++ " with no right operand"
  | .danglingEscape => "dangling escape at end of pattern"
  | .unterminatedClass => "unterminated character class"
  | .strayMetaInClass character =>
      s!"un-escaped character in class definition: {character}"
  | .badRangeEnd => "unexpected end of class range"
  | .rangeTooLarge first second span =>
      s!"character range too large: {first}-{second} spans {span} code points"
  | .emptyClass => "empty character class"
  | .unterminatedQuantifier => "unexpected end of input in quantifier"
  | .secondSeparator => "quantifier has more than one range separator"
  | .missingUpperBound => "quantifier range must be closed"
  | .nonDigit character => s!"non-digit in quantifier: '{character}'"
  | .numberTooLarge digits => "quantifier too large: " ++ String.ofList digits
  | .repetitionTooLarge count limit =>
      s!"quantifier {count} exceeds the maximum of {limit}"
  | .boundsReversed low high =>
      s!"quantifier lower bound {low} exceeds upper bound {high}"
  | .unterminatedReference => "unterminated source reference"
  | .badIdentifier name => "not a valid identifier: '" ++ String.ofList name ++ "'"

end SyntaxFault

/-- A fault and its place in the pattern. -/
structure SyntaxError where
  fault : SyntaxFault
  position : Position
deriving DecidableEq, Repr

end TextTemplate
