/-!
# Writing JSON

The pieces of compact JSON text: strings, lists and objects without any blank.  Only quotes,
backslashes and control characters are escaped, those with a short escape by it.  A piece is
given what comes after it, so that nesting copies nothing.
-/

namespace TextTemplate.Json

/-- A character inside a string. -/
def escape (character : Char) : List Char :=
  if character = '"' then ['\\', '"']
  else if character = '\\' then ['\\', '\\']
  else if character = '\x08' then ['\\', 'b']
  else if character = '\x0c' then ['\\', 'f']
  else if character = '\n' then ['\\', 'n']
  else if character = '\r' then ['\\', 'r']
  else if character = '\t' then ['\\', 't']
  else if character.toNat < 0x20 then
    ['\\', 'u', '0', '0', Nat.digitChar (character.toNat / 16),
      Nat.digitChar (character.toNat % 16)]
  else [character]

/-- Text that is written in front of the text that comes after it. -/
abbrev Piece := (after : List Char) → List Char

/-- A string. -/
def writeText (text : List Char) : Piece := fun after =>
  '"' :: text.flatMap escape ++ '"' :: after

/-- A natural number. -/
def writeNatural (number : Nat) : Piece := fun after => Nat.toDigits 10 number ++ after

/-- Pieces with commas between them. -/
def separated : List Piece → Piece
  | [], after => after
  | [piece], after => piece after
  | piece :: next :: rest, after => piece (',' :: separated (next :: rest) after)

/-- A list of values. -/
def writeArray (items : List Piece) : Piece := fun after =>
  '[' :: separated items (']' :: after)

/-- A value behind its name. -/
def writeField (name : String) (value : Piece) : Piece := fun after =>
  writeText name.toList (':' :: value after)

/-- An object of fields. -/
def writeObject (fields : List Piece) : Piece := fun after =>
  '\x7b' :: separated fields ('\x7d' :: after)

end TextTemplate.Json
