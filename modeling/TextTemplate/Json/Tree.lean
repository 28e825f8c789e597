import TextTemplate.Json.Reader
import TextTemplate.Json.Writer
import TextTemplate.Text.WordSize
import TextTemplate.Tree.Node

/-!
# Trees as JSON

A node is an object whose only field is named for its kind and holds the parts of the node.
The parts are written as an object; they are read from an object with the fields in any
order and unknown ones among them, or from an array with exactly the parts in order.
Reading allows arrays and objects to nest up to a limit; parts that are not read do not count.
-/

namespace TextTemplate

/-! ## Writing -/

namespace Json

/-- An object whose only field has the name of a kind. -/
def writeKind (kind : String) (parts : Piece) : Piece :=
  writeObject [writeField kind parts]

def writeCharacter (character : Char) : Piece := writeText [character]

end Json

/-- A repetition as a piece of JSON. -/
def Repetition.writeJson : Repetition → Json.Piece
  | .exactly count => Json.writeKind "Exactly" (Json.writeNatural count)
  | .between low high =>
      Json.writeKind "Between" (Json.writeArray [Json.writeNatural low, Json.writeNatural high])

/-- A repetition in JSON. -/
def Repetition.toJson (repetition : Repetition) : List Char := repetition.writeJson []

namespace Node

mutual

/-- A tree as a piece of JSON. -/
def writeJson : Node → Json.Piece
  | .literal text =>
      Json.writeKind "Literal"
        (Json.writeObject [Json.writeField "text" (Json.writeText text)])
  | .characterSet members repetition =>
      Json.writeKind "CharacterSet"
        (Json.writeObject
          [Json.writeField "chars" (Json.writeArray (members.map Json.writeCharacter)),
            Json.writeField "repeat" repetition.writeJson])
  | .sequence children =>
      Json.writeKind "Sequence"
        (Json.writeObject
          [Json.writeField "children" (Json.writeArray (writeJsonAll children))])
  | .alternation operands =>
      Json.writeKind "Alternation"
        (Json.writeObject
          [Json.writeField "operands" (Json.writeArray (writeJsonAll operands))])
  | .permutation operands =>
      Json.writeKind "Permutation"
        (Json.writeObject
          [Json.writeField "operands" (Json.writeArray (writeJsonAll operands))])
  | .reference name =>
      Json.writeKind "ExternalSource"
        (Json.writeObject [Json.writeField "name" (Json.writeText name)])

/-- Trees as pieces of JSON. -/
def writeJsonAll : List Node → List Json.Piece
  | [] => []
  | node :: rest => writeJson node :: writeJsonAll rest

end

/-- A tree in JSON. -/
def toJson (node : Node) : List Char := node.writeJson []

end Node

/-! ## Reading -/

namespace Json

/-- How deep the arrays and objects of a tree may nest. -/
def maxLevels : Nat := 127

/-- The kind and the parts of an object that names exactly one kind. -/
def kind? : Json → Option (String × Json)
  | .object [(some kind, parts)] => some (String.ofList kind, parts)
  | _ => none

/-- The value of a field that occurs exactly once. -/
def field? (name : List Char) (fields : List (Option (List Char) × Json)) : Option Json :=
  match fields.filter fun field => field.1 == some name with
  | [(_, value)] => some value
  | _ => none

/-- The parts with the given names, in that order. -/
def parts? (names : List String) : Json → Option (List Json)
  | .array items => if items.length = names.length then some items else none
  | .object fields =>
      if fields.all fun field => field.1.isSome then
        names.mapM fun name => field? name.toList fields
      else none
  | _ => none

def string? : Json → Option (List Char)
  | .string content => some content
  | _ => none

/-- The character of a string that holds exactly one. -/
def character? : Json → Option Char
  | .string [character] => some character
  | _ => none

/-- A natural number that fits in a word. -/
def word? : Json → Option Nat
  | .natural value => if value < wordSize then some value else none
  | _ => none

/-- The items of an array, which needs one level of nesting. -/
def items? : Nat → Json → Option (List Json)
  | _ + 1, .array items => some items
  | _, _ => none

end Json

/-- The repetition that a JSON value writes. -/
def Repetition.ofJson? : Nat → Json → Option Repetition
  | levels + 1, json => do
      let (kind, parts) ← json.kind?
      if kind = "Exactly" then
        let count ← parts.word?
        some (.exactly count)
      else if kind = "Between" then
        match parts.items? levels with
        | some [low, high] => do
            let low ← low.word?
            let high ← high.word?
            some (.between low high)
        | _ => none
      else none
  | 0, _ => none

namespace Node

mutual

/-- The tree that a JSON value writes. -/
def ofJson? : Nat → Json → Option Node
  | levels + 2, json => do
      let (kind, parts) ← json.kind?
      if kind = "Literal" then
        match parts.parts? ["text"] with
        | some [text] => text.string?.map .literal
        | _ => none
      else if kind = "CharacterSet" then
        match parts.parts? ["chars", "repeat"] with
        | some [chars, repetition] => do
            let items ← chars.items? levels
            let members ← items.mapM Json.character?
            let repetition ← Repetition.ofJson? levels repetition
            some (.characterSet members repetition)
        | _ => none
      else if kind = "Sequence" then
        (nodesOfJson? "children" levels parts).map .sequence
      else if kind = "Alternation" then
        (nodesOfJson? "operands" levels parts).map .alternation
      else if kind = "Permutation" then
        (nodesOfJson? "operands" levels parts).map .permutation
      else if kind = "ExternalSource" then
        match parts.parts? ["name"] with
        | some [name] => name.string?.map .reference
        | _ => none
      else none
  | _, _ => none

/-- The nodes listed in the only part of a node. -/
def nodesOfJson? (name : String) : Nat → Json → Option (List Node)
  | levels + 1, parts =>
      match parts.parts? [name] with
      | some [.array items] => items.mapM (ofJson? levels)
      | _ => none
  | 0, _ => none

end

/-- The tree that a JSON text writes. -/
def readJson? (text : List Char) : Option Node := do
  let json ← Json.read? text
  ofJson? Json.maxLevels json

end Node

/-- The repetition that a JSON text writes. -/
def Repetition.readJson? (text : List Char) : Option Repetition := do
  let json ← Json.read? text
  Repetition.ofJson? Json.maxLevels json

end TextTemplate
