import TextTemplate.Random.Recipe
import TextTemplate.Tree.Node

/-!
# Rendering trees

The recipe of a tree asks for every random decision and every bound text that a rendering of
it needs, from left to right.  Of an alternation only the chosen operand is asked for.  The
recipes of all subtrees are made once and not anew for every rendering.
-/

namespace TextTemplate

namespace Repetition

/-- The recipe for how many characters to draw. -/
def recipe : Repetition → Recipe Nat
  | .exactly count => .done count
  | .between low high => .between low high .done

end Repetition

/-- The recipe for more members of a set, behind those already drawn, latest first. -/
def drawMembers (members : Array Char) : Nat → List Char → Recipe (List Char)
  | 0, drawn => .done drawn.reverse
  | count + 1, drawn =>
      .index members.size fun chosen =>
        drawMembers members count
          (match members[chosen]? with
            | some member => member :: drawn
            | none => drawn)

namespace Recipe

/-- The texts of some recipes, one after the other behind earlier text, latest first. -/
def concatBehind (earlier : List Char) : List (Recipe (List Char)) → Recipe (List Char)
  | [] => .done earlier.reverse
  | first :: rest => first.bind fun text => concatBehind (text.reverseAux earlier) rest

/-- The texts of some recipes, one after the other. -/
def concat (recipes : List (Recipe (List Char))) : Recipe (List Char) :=
  concatBehind [] recipes

/-- The text of one of some recipes, which a further index chooses. -/
def oneOf (recipes : Array (Recipe (List Char))) : Recipe (List Char) :=
  if recipes.isEmpty then .done []
  else .index recipes.size fun chosen => recipes[chosen]?.getD (.done [])

end Recipe

namespace Node

/-- The recipe for the text of a set. -/
def renderSet (members : Array Char) (repetition : Repetition) : Recipe (List Char) :=
  if members.isEmpty then .done []
  else repetition.recipe.bind fun count => drawMembers members count []

mutual

/-- The recipe for the text of a tree. -/
def render : Node → Recipe (List Char)
  | .literal text => .done text
  | .characterSet members repetition => renderSet members.toArray repetition
  | .sequence children => .concat (renderEach children)
  | .alternation operands => .oneOf (renderEach operands).toArray
  | .permutation operands =>
      (Recipe.concat (renderEach operands)).bind fun text => .shuffle text .done
  | .reference name => .resolve name .done

/-- The recipes for the texts of some trees. -/
def renderEach : List Node → List (Recipe (List Char))
  | [] => []
  | node :: rest => render node :: renderEach rest

end

/-- The recipe for the text of a tree behind a given text. -/
def renderBehind (before : List Char) (node : Node) : Recipe (List Char) :=
  node.render.bind fun text => .done (before ++ text)

end Node

end TextTemplate
