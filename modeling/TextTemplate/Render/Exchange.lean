import TextTemplate.Render.Session
import TextTemplate.Tree.Node

/-!
# Exchanges

An exchange is a question together with the answer that it got.  The exchanges of a rendering
follow the tree: every reference that is reached is asked for once, from left to right, and of
an alternation only the chosen operand is reached.
-/

namespace TextTemplate

/-- A question and its answer. -/
inductive Exchange where
  | index (bound answer : Nat)
  | between (low high answer : Nat)
  | shuffle (characters answer : List Char)
  | resolve (name answer : List Char)
deriving DecidableEq, Repr

namespace Exchange

/-- No name is asked for. -/
def IsDraw (exchange : Exchange) : Prop := ∀ name answer, exchange ≠ .resolve name answer

/-- The text for a name, when that name was asked for. -/
def textFor? (name : List Char) : Exchange → Option (List Char)
  | .resolve asked answer => if asked = name then some answer else none
  | _ => none

/-- The texts for a name, one for each time that it was asked for. -/
def textsFor (name : List Char) (exchanges : List Exchange) : List (List Char) :=
  exchanges.filterMap (textFor? name)

end Exchange

/-- What is asked and answered when a recipe is followed. -/
def Session.exchanges {σ α : Type} (provider : Provider σ) :
    Recipe α → Session σ → List Exchange
  | .done _, _ => []
  | .index bound next, session =>
      let (answer, randomness) := provider.nextIndex bound session.randomness
      .index bound answer ::
        exchanges provider (next answer) { session with randomness := randomness }
  | .between low high next, session =>
      let (answer, randomness) := provider.integer low high session.randomness
      .between low high answer ::
        exchanges provider (next answer) { session with randomness := randomness }
  | .shuffle characters next, session =>
      let (answer, randomness) := provider.rearrange characters session.randomness
      .shuffle characters answer ::
        exchanges provider (next answer) { session with randomness := randomness }
  | .resolve name next, session =>
      let (answer, session) := session.resolve provider name
      .resolve name answer :: exchanges provider (next answer) session

namespace Node

mutual

/-- Some exchanges make up one rendering of a tree to a text. -/
def RendersBy : Node → List Exchange → List Char → Prop
  | .literal content, exchanges, text => exchanges = [] ∧ text = content
  | .characterSet _ _, exchanges, _ => ∀ exchange ∈ exchanges, exchange.IsDraw
  | .sequence children, exchanges, text => AllRenderBy children exchanges text
  | .alternation operands, exchanges, text =>
      (operands = [] ∧ exchanges = [] ∧ text = []) ∨
        ∃ chosen rest, exchanges = .index operands.length chosen :: rest ∧
          ChosenRendersBy operands chosen rest text
  | .permutation operands, exchanges, text =>
      ∃ before combined, AllRenderBy operands before combined ∧
        exchanges = before ++ [.shuffle combined text]
  | .reference name, exchanges, text => exchanges = [.resolve name text]

/-- Some exchanges render all the trees, one after the other. -/
def AllRenderBy : List Node → List Exchange → List Char → Prop
  | [], exchanges, text => exchanges = [] ∧ text = []
  | node :: rest, exchanges, text =>
      ∃ first later own behind, RendersBy node first own ∧ AllRenderBy rest later behind ∧
        exchanges = first ++ later ∧ text = own ++ behind

/-- Some exchanges render the one tree that an index chooses, if it chooses one. -/
def ChosenRendersBy : List Node → Nat → List Exchange → List Char → Prop
  | [], _, exchanges, text => exchanges = [] ∧ text = []
  | node :: _, 0, exchanges, text => RendersBy node exchanges text
  | _ :: rest, chosen + 1, exchanges, text => ChosenRendersBy rest chosen exchanges text

end

end Node

end TextTemplate
