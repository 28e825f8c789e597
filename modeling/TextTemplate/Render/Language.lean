import TextTemplate.Render.Bindings
import TextTemplate.Tree.Node

/-!
# The language of a tree

Which texts a tree stands for, said by its structure alone: without randomness, and for
bindings whose sources do not change when they are used.
-/

namespace TextTemplate

/-- The texts that a source without state stands for. -/
def Source.Language : Source → List Char → Prop
  | .text content, word => word = content
  | .choices options, word => word ∈ options ∨ (options = [] ∧ word = [])
  | .function _ _, _ => False
  | .lazy _ _, _ => False

/-- The texts that a name stands for; a name without a binding stands for the empty text. -/
def Bindings.Language (bindings : Bindings) (name text : List Char) : Prop :=
  match bindings.get? name with
  | none => text = []
  | some source => source.Language text

/-- Strings over some members with so many characters; without members the empty one. -/
def setLanguage (members : List Char) (repetition : Repetition) (text : List Char) : Prop :=
  if members = [] then text = []
  else
    (∀ character ∈ text, character ∈ members) ∧
      repetition.low ≤ text.length ∧ text.length ≤ repetition.high

namespace Node

mutual

/-- The texts that a tree stands for. -/
def Language (bindings : Bindings) : Node → List Char → Prop
  | .literal content, text => text = content
  | .characterSet members repetition, text => setLanguage members repetition text
  | .sequence children, text => LanguageAll bindings children text
  | .alternation operands, text =>
      LanguageAny bindings operands text ∨ (operands = [] ∧ text = [])
  | .permutation operands, text =>
      ∃ arranged, LanguageAll bindings operands arranged ∧ text.Perm arranged
  | .reference name, text => bindings.Language name text

/-- Texts of all the trees, one after the other. -/
def LanguageAll (bindings : Bindings) : List Node → List Char → Prop
  | [], text => text = []
  | node :: rest, text =>
      ∃ first later, Language bindings node first ∧ LanguageAll bindings rest later ∧
        text = first ++ later

/-- Texts of any of the trees. -/
def LanguageAny (bindings : Bindings) : List Node → List Char → Prop
  | [], _ => False
  | node :: rest, text => Language bindings node text ∨ LanguageAny bindings rest text

end

end Node

end TextTemplate
