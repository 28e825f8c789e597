import TextTemplate.Pattern.CharRange

/-!
# Named character classes

A letter behind a backslash stands for a whole class inside brackets.  The members of a
class have a fixed order, and a class named twice counts twice.
-/

namespace TextTemplate

namespace CharClass

def digits : List Char := charsBetween '0' '9'

def lowercase : List Char := charsBetween 'a' 'z'

def uppercase : List Char := charsBetween 'A' 'Z'

def letters : List Char := lowercase ++ uppercase

/-- Space, tab, line feed, carriage return, vertical tab and form feed. -/
def whitespace : List Char := [' ', '\t', '\n', '\r', '\x0b', '\x0c']

/-- The printable ASCII characters that are neither letters nor digits nor the space. -/
def punctuation : List Char :=
  charsBetween '!' '/' ++ charsBetween ':' '@' ++ charsBetween '[' '\x60' ++
    charsBetween '\x7b' '~'

def octalDigits : List Char := charsBetween '0' '7'

def hexDigits : List Char := digits ++ charsBetween 'a' 'f' ++ charsBetween 'A' 'F'

def word : List Char := '_' :: letters ++ digits

def nonWord : List Char := whitespace ++ punctuation

def printable : List Char := digits ++ letters ++ punctuation ++ whitespace

end CharClass

/-- The classes that a letter can name. -/
inductive ClassCode where
  | digit
  | word
  | nonWord
  | space
  | punct
  | letter
  | upper
  | lower
  | octDigit
  | hexDigit
  | printable
deriving DecidableEq, Repr

namespace ClassCode

/-- The class that a letter names. -/
def ofLetter? : Char → Option ClassCode
  | 'd' => some .digit
  | 'w' => some .word
  | 'W' => some .nonWord
  | 's' => some .space
  | 'p' => some .punct
  | 'l' => some .letter
  | 'u' => some .upper
  | 'U' => some .upper
  | 'c' => some .lower
  | 'o' => some .octDigit
  | 'h' => some .hexDigit
  | 'r' => some .printable
  | _ => none

/-- The characters of a class, in its fixed order. -/
def members : ClassCode → List Char
  | .digit => CharClass.digits
  | .word => CharClass.word
  | .nonWord => CharClass.nonWord
  | .space => CharClass.whitespace
  | .punct => CharClass.punctuation
  | .letter => CharClass.letters
  | .upper => CharClass.uppercase
  | .lower => CharClass.lowercase
  | .octDigit => CharClass.octalDigits
  | .hexDigit => CharClass.hexDigits
  | .printable => CharClass.printable

/-- No class is empty, and the largest has one hundred members. -/
theorem members_length_bounds (code : ClassCode) :
    0 < code.members.length ∧ code.members.length ≤ 100 := by
  cases code <;> decide

end ClassCode

/-- What an escaped character adds to a class: a named class, or the character itself. -/
def escapedMembers (escaped : Char) : List Char :=
  match ClassCode.ofLetter? escaped with
  | some code => code.members
  | none => [escaped]

theorem escapedMembers_ne_nil (escaped : Char) : escapedMembers escaped ≠ [] := by
  unfold escapedMembers
  split
  · next code _ => exact List.ne_nil_of_length_pos code.members_length_bounds.1
  · exact List.cons_ne_nil _ _

end TextTemplate
