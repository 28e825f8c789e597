import TextTemplate.Text.GraphemeExtender
import TextTemplate.Text.Unprintable

/-!
# Quoted text

How texts and characters are shown to a person: control characters as short escapes, other
characters without a picture of their own by their code point in hexadecimal.
-/

namespace TextTemplate

namespace Quoted

/-- The digits of a number in base sixteen, lower case and without padding. -/
def hexDigits (number : Nat) : List Char :=
  Nat.toDigits 16 number

/-- A character written by its code point. -/
def codePointEscape (character : Char) : List Char :=
  ['\\', 'u', '\x7b'] ++ hexDigits character.toNat ++ ['\x7d']

/-- The escape that both kinds of quoting share; the quotes themselves are left alone. -/
def escape (character : Char) : List Char :=
  if character = '\x00' then ['\\', '0']
  else if character = '\t' then ['\\', 't']
  else if character = '\r' then ['\\', 'r']
  else if character = '\n' then ['\\', 'n']
  else if character = '\\' then ['\\', '\\']
  else if isGraphemeExtender character || isUnprintable character then
    codePointEscape character
  else [character]

/-- A character as it stands between double quotes. -/
def escapeInText (character : Char) : List Char :=
  if character = '"' then ['\\', '"'] else escape character

/-- A character shown alone: either kind of quote is escaped. -/
def escapeAlone (character : Char) : List Char :=
  if character = '"' then ['\\', '"']
  else if character = '\'' then ['\\', '\'']
  else escape character

end Quoted

/-- A text between double quotes. -/
def quoted (text : List Char) : List Char :=
  ['"'] ++ text.flatMap Quoted.escapeInText ++ ['"']

/-- Some texts in quotes, with commas between them and in brackets. -/
def quotedList (texts : List (List Char)) : List Char :=
  '[' :: [',', ' '].intercalate (texts.map quoted) ++ [']']

end TextTemplate
