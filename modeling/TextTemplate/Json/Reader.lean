import TextTemplate.Json.Value

/-!
# Reading JSON

A strict reader: one value with blanks around it, no leading zeros, no trailing commas, no
raw control characters.  The fuel bounds how many reading steps nest inside one another; each
of them but the last uses up a character, so the length of the text is enough.
-/

namespace TextTemplate.Json

/-- Whether a character may stand between the parts of a value. -/
def isBlank (character : Char) : Bool :=
  character == ' ' || character == '\n' || character == '\t' || character == '\r'

/-- The text behind its leading blanks. -/
def skipBlanks (text : List Char) : List Char :=
  text.dropWhile isBlank

/-! ## Strings -/

/-- The value of a hexadecimal digit of either case. -/
def hexValue? (digit : Char) : Option Nat :=
  if '0' ≤ digit ∧ digit ≤ '9' then some (digit.toNat - '0'.toNat)
  else if 'a' ≤ digit ∧ digit ≤ 'f' then some (digit.toNat - 'a'.toNat + 10)
  else if 'A' ≤ digit ∧ digit ≤ 'F' then some (digit.toNat - 'A'.toNat + 10)
  else none

/-- The code unit that four hexadecimal digits write. -/
def codeUnit? (first second third fourth : Char) : Option Nat := do
  let high ← hexValue? first
  let upper ← hexValue? second
  let lower ← hexValue? third
  let low ← hexValue? fourth
  some (((high * 16 + upper) * 16 + lower) * 16 + low)

/-- The code that the letter of a short escape stands for. -/
def shortEscape? : Char → Option Nat
  | '"' => some 0x22
  | '\\' => some 0x5c
  | '/' => some 0x2f
  | 'b' => some 0x08
  | 'f' => some 0x0c
  | 'n' => some 0x0a
  | 'r' => some 0x0d
  | 't' => some 0x09
  | _ => none

/-- Reads the codes of a string up to its closing quote: code points, or escaped code units. -/
def readCodes : List Char → Option (List Nat × List Char)
  | [] => none
  | '"' :: after => some ([], after)
  | ['\\'] => none
  | '\\' :: 'u' :: first :: second :: third :: fourth :: rest => do
      let code ← codeUnit? first second third fourth
      let (codes, after) ← readCodes rest
      some (code :: codes, after)
  | '\\' :: letter :: rest => do
      let code ← shortEscape? letter
      let (codes, after) ← readCodes rest
      some (code :: codes, after)
  | character :: rest =>
      if character.toNat < 0x20 then none
      else do
        let (codes, after) ← readCodes rest
        some (character.toNat :: codes, after)

def isHighSurrogate (code : Nat) : Bool := 0xd800 ≤ code && code < 0xdc00

def isLowSurrogate (code : Nat) : Bool := 0xdc00 ≤ code && code < 0xe000

/-- The code point that a surrogate pair writes. -/
def pairedCode (high low : Nat) : Nat :=
  0x10000 + (high - 0xd800) * 0x400 + (low - 0xdc00)

/-- The text of a string, unless a surrogate stands without its partner. -/
def textOfCodes? : List Nat → Option (List Char)
  | [] => some []
  | [code] =>
      if isHighSurrogate code || isLowSurrogate code then none else some [Char.ofNat code]
  | first :: second :: rest =>
      if isHighSurrogate first then
        if isLowSurrogate second then
          (textOfCodes? rest).map (Char.ofNat (pairedCode first second) :: ·)
        else none
      else if isLowSurrogate first then none
      else (textOfCodes? (second :: rest)).map (Char.ofNat first :: ·)

/-- Reads a string behind its opening quote. -/
def readString (text : List Char) : Option (Option (List Char) × List Char) :=
  (readCodes text).map fun (codes, after) => (textOfCodes? codes, after)

/-! ## Numbers -/

/-- Takes one or more digits off a text. -/
def readDigits (text : List Char) : Option (List Char × List Char) :=
  match text.takeWhile Char.isDigit with
  | [] => none
  | digits => some (digits, text.dropWhile Char.isDigit)

/-- Takes the digits behind a point off a text, if there is a point. -/
def skipFraction : List Char → Option (List Char)
  | '.' :: rest => (readDigits rest).map Prod.snd
  | text => some text

/-- Takes an exponent off a text, if there is one. -/
def skipExponent : List Char → Option (List Char)
  | mark :: rest =>
      if mark = 'e' ∨ mark = 'E' then
        match rest with
        | sign :: digits =>
            if sign = '+' ∨ sign = '-' then (readDigits digits).map Prod.snd
            else (readDigits (sign :: digits)).map Prod.snd
        | [] => none
      else some (mark :: rest)
  | [] => some []

/-- Reads an unsigned number.  It is a natural number when nothing follows its digits. -/
def readUnsigned (text : List Char) : Option (Json × List Char) := do
  let (digits, behindDigits) ← readDigits text
  if digits.head? = some '0' ∧ digits.length ≠ 1 then none
  else
    let behindFraction ← skipFraction behindDigits
    let after ← skipExponent behindFraction
    if after.length = behindDigits.length then
      some (.natural (Nat.ofDigitChars 10 digits 0), after)
    else some (.other, after)

/-- Reads a number.  A signed number is no natural number, even if it is zero. -/
def readNumber : List Char → Option (Json × List Char)
  | '-' :: rest => (readUnsigned rest).map fun (_, after) => (.other, after)
  | text => readUnsigned text

/-! ## Values -/

mutual

/-- Reads one value, with the blanks in front of it. -/
def readValue : Nat → List Char → Option (Json × List Char)
  | 0, _ => none
  | fuel + 1, text =>
      match skipBlanks text with
      | '"' :: rest =>
          (readString rest).map fun (content, after) =>
            (match content with | some content => .string content | none => .other, after)
      | '[' :: rest =>
          match skipBlanks rest with
          | ']' :: after => some (.array [], after)
          | items => do
              let (first, behindFirst) ← readValue fuel items
              let (others, after) ← readItems fuel behindFirst
              some (.array (first :: others), after)
      | '\x7b' :: rest =>
          match skipBlanks rest with
          | '\x7d' :: after => some (.object [], after)
          | fields => do
              let (first, behindFirst) ← readField fuel fields
              let (others, after) ← readFields fuel behindFirst
              some (.object (first :: others), after)
      | 't' :: 'r' :: 'u' :: 'e' :: after => some (.other, after)
      | 'f' :: 'a' :: 'l' :: 's' :: 'e' :: after => some (.other, after)
      | 'n' :: 'u' :: 'l' :: 'l' :: after => some (.other, after)
      | number => readNumber number

/-- Reads the items of an array behind its first one. -/
def readItems : Nat → List Char → Option (List Json × List Char)
  | 0, _ => none
  | fuel + 1, text =>
      match skipBlanks text with
      | ']' :: after => some ([], after)
      | ',' :: rest => do
          let (item, behindItem) ← readValue fuel rest
          let (others, after) ← readItems fuel behindItem
          some (item :: others, after)
      | _ => none

/-- Reads a name and its value. -/
def readField : Nat → List Char → Option ((Option (List Char) × Json) × List Char)
  | 0, _ => none
  | fuel + 1, text =>
      match skipBlanks text with
      | '"' :: rest => do
          let (name, behindName) ← readString rest
          match skipBlanks behindName with
          | ':' :: behindColon => do
              let (value, after) ← readValue fuel behindColon
              some ((name, value), after)
          | _ => none
      | _ => none

/-- Reads the fields of an object behind its first one. -/
def readFields : Nat → List Char → Option (List (Option (List Char) × Json) × List Char)
  | 0, _ => none
  | fuel + 1, text =>
      match skipBlanks text with
      | '\x7d' :: after => some ([], after)
      | ',' :: rest => do
          let (field, behindField) ← readField fuel rest
          let (others, after) ← readFields fuel behindField
          some (field :: others, after)
      | _ => none

end

/-- The value that a whole text writes. -/
def read? (text : List Char) : Option Json := do
  let (value, after) ← readValue (text.length + 1) text
  if (skipBlanks after).isEmpty then some value else none

end TextTemplate.Json
