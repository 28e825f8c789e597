import TextTemplate.Text.Quoted
import TextTemplate.Tree.Node

/-!
# Outlines of trees

An outline has one line for every node, parents before their children, and each level is
indented once more than the one above it.  A depth limit replaces every node right below it
by an ellipsis and leaves out everything under that.
-/

namespace TextTemplate

/-- How an outline is laid out. -/
structure OutlineStyle where
  /-- What stands in front of a line once for every level. -/
  indent : List Char := [' ', ' ', ' ', ' ']
  /-- The deepest level shown; all levels are shown when there is no limit. -/
  maxDepth : Option Nat := none

/-- A line of an outline and the level of its node. -/
structure OutlineLine where
  depth : Nat
  label : List Char
deriving DecidableEq, Repr

namespace Outline

/-- How many members of a set are listed. -/
def maxMembersShown : Nat := 32

/-- A repetition in the notation of patterns. -/
def repetitionLabel : Repetition → List Char
  | .exactly count => '\x7b' :: Nat.toDigits 10 count ++ ['\x7d']
  | .between low high =>
      '\x7b' :: Nat.toDigits 10 low ++ ':' :: Nat.toDigits 10 high ++ ['\x7d']

/-- The members of a set in brackets; a long list is cut and its length given instead. -/
def membersLabel (members : List Char) : List Char :=
  let shown := (members.take maxMembersShown).flatMap Quoted.escapeAlone
  if maxMembersShown < members.length then
    '[' :: shown ++ "...] (".toList ++ Nat.toDigits 10 members.length ++ " members)".toList
  else '[' :: shown ++ [']']

/-- What the line of a node says, apart from its children. -/
def label : Node → List Char
  | .literal text => "Literal ".toList ++ quoted text
  | .characterSet members repetition =>
      "CharacterSet ".toList ++ repetitionLabel repetition ++ ' ' :: membersLabel members
  | .sequence _ => "Sequence".toList
  | .alternation _ => "Alternation".toList
  | .permutation _ => "Permutation".toList
  | .reference name => "ExternalSource $\x7b".toList ++ name ++ ['\x7d']

/-- The label in place of a node below the depth limit. -/
def ellipsis : List Char := ['.', '.', '.']

/-- Whether a level lies below the depth limit. -/
def isHidden (maxDepth : Option Nat) (depth : Nat) : Bool :=
  match maxDepth with
  | some limit => limit < depth
  | none => false

mutual

/-- The lines of a tree whose root stands at a level. -/
def lines (maxDepth : Option Nat) (depth : Nat) (node : Node) : List OutlineLine :=
  if isHidden maxDepth depth then [⟨depth, ellipsis⟩]
  else
    ⟨depth, label node⟩ ::
      match node with
      | .sequence children => linesAll maxDepth (depth + 1) children
      | .alternation operands => linesAll maxDepth (depth + 1) operands
      | .permutation operands => linesAll maxDepth (depth + 1) operands
      | .literal _ => []
      | .characterSet _ _ => []
      | .reference _ => []

def linesAll (maxDepth : Option Nat) (depth : Nat) : List Node → List OutlineLine
  | [] => []
  | node :: rest => lines maxDepth depth node ++ linesAll maxDepth depth rest

end

/-- A line with its indentation and its end. -/
def writeLine (indent : List Char) (line : OutlineLine) : List Char :=
  (List.replicate line.depth indent).flatten ++ line.label ++ ['\n']

end Outline

/-- The outline of a tree. -/
def Node.outline (node : Node) (style : OutlineStyle) : List Char :=
  (Outline.lines style.maxDepth 0 node).flatMap (Outline.writeLine style.indent)

end TextTemplate
