import TextTemplate.Pattern.SyntaxError

/-!
# Chains of operands

The nodes of one sequence arrive one by one, with operators between some of them.  An
operator joins the nodes on its two sides; neighbouring uses of the same operator make one
node, and a switch to the other operator makes the run so far its first operand.
-/

namespace TextTemplate

/-- The nodes of a sequence while it is being read.  All lists hold the latest node first. -/
inductive Chain where
  /-- No operator touches the latest node yet. -/
  | settled (nodes : List Node)
  /-- An operator has been read and waits for its right operand. -/
  | waiting (nodes : List Node) (operator : Operator) (operands : List Node)
  /-- A run that the same operator may continue. -/
  | joined (nodes : List Node) (operator : Operator) (operands : List Node)
deriving Repr

namespace Chain

/-- The chain before the first node. -/
def empty : Chain := .settled []

/-- The node for the operands of a run, latest first. -/
def runNode (operator : Operator) (operands : List Node) : Node :=
  operator.combine operands.reverse

/-- The chain with one more node. -/
def push (node : Node) : Chain → Chain
  | .settled nodes => .settled (node :: nodes)
  | .waiting nodes operator operands => .joined nodes operator (node :: operands)
  | .joined nodes operator operands => .settled (node :: runNode operator operands :: nodes)

/-- The chain behind an operator, which needs a node to its left. -/
def join (operator : Operator) : Chain → Except SyntaxFault Chain
  | .settled [] => .error (.noLeftOperand operator)
  | .settled (left :: nodes) => .ok (.waiting nodes operator [left])
  | .waiting _ _ _ => .error (.noLeftOperand operator)
  | .joined nodes pending operands =>
      if pending = operator then .ok (.waiting nodes operator operands)
      else .ok (.waiting nodes operator [runNode pending operands])

/-- The nodes of a finished sequence in order; no operator may wait for an operand. -/
def finish : Chain → Except SyntaxFault (List Node)
  | .settled nodes => .ok nodes.reverse
  | .waiting _ operator _ => .error (.noRightOperand operator)
  | .joined nodes operator operands => .ok (runNode operator operands :: nodes).reverse

end Chain

end TextTemplate
