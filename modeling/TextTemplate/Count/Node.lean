import TextTemplate.Count.Arrangements
import TextTemplate.Count.Strings
import TextTemplate.Render.Node

/-!
# Counting the outcomes of trees

Sequences multiply and alternations add.  A permutation is counted by the arrangements of one
sample of its text, and only over literals and character sets; drawing the sample is the only
reason for which counting asks anything.
-/

namespace TextTemplate

namespace Node

/-- Why a permutation of some operands cannot be counted. -/
def operandFault? : List Node → Option CountFault
  | [] => none
  | .literal _ :: rest => operandFault? rest
  | .characterSet _ _ :: rest => operandFault? rest
  | .reference name :: _ => some (.reference name)
  | _ :: _ => some .compositeOperand

mutual

/-- The recipe for the number of outcomes of a tree. -/
def count : Node → Recipe Counted
  | .literal _ => .done (.ok 1)
  | .characterSet members repetition =>
      .done (countStrings members.length repetition.low repetition.high)
  | .sequence children => countProduct 1 children
  | .alternation operands => countSum 0 operands
  | .permutation operands =>
      match operandFault? operands with
      | some fault => .done (.error fault)
      | none =>
          (Recipe.concat (renderEach operands)).bind fun sample =>
            .done (countArrangements sample)
  | .reference name => .done (.error (.reference name))

/-- Multiplies the counts of some trees to a product. -/
def countProduct (product : Nat) : List Node → Recipe Counted
  | [] => .done (.ok product)
  | node :: rest =>
      (count node).bind fun
        | .error fault => .done (.error fault)
        | .ok outcomes =>
            match Counted.mul product outcomes with
            | .error fault => .done (.error fault)
            | .ok product => countProduct product rest

/-- Adds the counts of some trees to a sum. -/
def countSum (sum : Nat) : List Node → Recipe Counted
  | [] => .done (.ok sum)
  | node :: rest =>
      (count node).bind fun
        | .error fault => .done (.error fault)
        | .ok outcomes =>
            match Counted.add sum outcomes with
            | .error fault => .done (.error fault)
            | .ok sum => countSum sum rest

end

end Node

end TextTemplate
