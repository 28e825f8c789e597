import TextTemplate.Pattern.Limits
import TextTemplate.Text.Identifier
import TextTemplate.Text.WordSize
import TextTemplate.Tree.Node

/-!
# From trees to patterns

Every tree in normal form can be written as a pattern.  Escapes stand where a character would
have structural meaning, groups stand for inner sequences, and the operands of an operator
are joined without parentheses.
-/

namespace TextTemplate

namespace PatternWriter

/-- A character of literal text. -/
def literalCharacter (character : Char) : List Char :=
  if isMeta character || character == '\\' then ['\\', character] else [character]

/-- A member of a set; a hyphen is escaped so that it makes no range. -/
def member (character : Char) : List Char :=
  if isMeta character || character == '\\' || character == '-' then ['\\', character]
  else [character]

/-- A quantifier; the repetition of one character has none. -/
def quantifier : Repetition → List Char
  | .exactly 1 => []
  | .exactly count => '\x7b' :: Nat.toDigits 10 count ++ ['\x7d']
  | .between low high =>
      '\x7b' :: Nat.toDigits 10 low ++ ':' :: Nat.toDigits 10 high ++ ['\x7d']

mutual

/-- A node inside a sequence. -/
def item : Node → List Char
  | .literal text => text.flatMap literalCharacter
  | .characterSet members repetition =>
      '[' :: members.flatMap member ++ ']' :: quantifier repetition
  | .sequence children => '(' :: items children ++ [')']
  | .alternation operands => joined '|' operands
  | .permutation operands => joined '&' operands
  | .reference name => '$' :: '\x7b' :: name ++ ['\x7d']

/-- The nodes of a sequence. -/
def items : List Node → List Char
  | [] => []
  | node :: rest => item node ++ items rest

/-- The operands of an operator. -/
def joined (symbol : Char) : List Node → List Char
  | [] => []
  | [node] => item node
  | node :: next :: rest => item node ++ symbol :: joined symbol (next :: rest)

end

end PatternWriter

/-- Literal text as a pattern. -/
def escapeText (text : List Char) : List Char :=
  text.flatMap PatternWriter.literalCharacter

/-- A tree as a pattern; the sequence at its root needs no parentheses. -/
def Node.toPattern : Node → List Char
  | .sequence children => PatternWriter.items children
  | node => PatternWriter.item node

/-! ## Normal form -/

namespace Node

mutual

/-- The item that a node begins with, which is its first operand's if it joins operands. -/
def firstItem : Node → Node
  | .alternation operands => firstItemOf (.alternation operands) operands
  | .permutation operands => firstItemOf (.permutation operands) operands
  | node => node

def firstItemOf (whole : Node) : List Node → Node
  | [] => whole
  | operand :: _ => firstItem operand

end

mutual

/-- The item that a node ends with, which is its last operand's if it joins operands. -/
def lastItem : Node → Node
  | .alternation operands => lastItemOf (.alternation operands) operands
  | .permutation operands => lastItemOf (.permutation operands) operands
  | node => node

def lastItemOf (whole : Node) : List Node → Node
  | [] => whole
  | [operand] => lastItem operand
  | _ :: next :: rest => lastItemOf whole (next :: rest)

end

def isLiteral : Node → Bool
  | .literal _ => true
  | _ => false

/-- The operator whose operands a node joins. -/
def operator? : Node → Option Operator
  | .alternation _ => some .alternate
  | .permutation _ => some .permute
  | _ => none

/-- No literal text stands directly behind other literal text. -/
def literalsApart : List Node → Bool
  | [] => true
  | [_] => true
  | node :: next :: rest =>
      !(node.lastItem.isLiteral && next.firstItem.isLiteral) && literalsApart (next :: rest)

/-- Only the first operand may join operands itself, and then with the other operator. -/
def operandsApart (operator : Operator) : List Node → Bool
  | [] => false
  | first :: rest =>
      !rest.isEmpty && first.operator? != some operator
        && rest.all fun operand => operand.operator?.isNone

end Node

/-- A repetition that the limits allow. -/
def Repetition.isNormal (limits : Limits) : Repetition → Bool
  | .exactly count => count == 1 || (count ≤ limits.maxRepeat && count < wordSize)
  | .between low high => low ≤ high && high ≤ limits.maxRepeat && high < wordSize

namespace Node

mutual

/-- Normal form of a node below which sequences may nest so many levels more. -/
def isNormalItem (limits : Limits) (levels : Nat) : Node → Bool
  | .literal text => !text.isEmpty
  | .characterSet members repetition => !members.isEmpty && repetition.isNormal limits
  | .sequence children =>
      match levels with
      | 0 => false
      | levels + 1 => literalsApart children && areNormalItems limits levels children
  | .alternation operands =>
      operandsApart .alternate operands && areNormalItems limits levels operands
  | .permutation operands =>
      operandsApart .permute operands && areNormalItems limits levels operands
  | .reference name => isIdentifier name

def areNormalItems (limits : Limits) (levels : Nat) : List Node → Bool
  | [] => true
  | node :: rest => isNormalItem limits levels node && areNormalItems limits levels rest

end

/-- Normal form of a whole tree, whose root is a sequence outside all groups. -/
def isNormal (limits : Limits) : Node → Bool
  | .sequence children => isNormalItem limits (limits.maxDepth + 1) (.sequence children)
  | _ => false

end Node

end TextTemplate
