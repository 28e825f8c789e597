import TextTemplate.Pattern.Chain

/-!
# Chains in fields

The nodes of a sequence can also be gathered in three fields that change in place: the nodes that
no operator touches, the run that an operator has begun, and whether that run waits for an operand.
The fields allow for states that no chain is in, and a call that is refused leaves a state behind.
All lists are in order.
-/

namespace TextTemplate

/-- An item of a sequence, or an operator between two items. -/
inductive SequencePart where
  | item (node : Node)
  | operator (operator : Operator)
deriving Repr

/-- The nodes of a sequence while it is being read. -/
structure Assembly where
  nodes : List Node
  /-- The operator of the latest run and its operands so far. -/
  run? : Option (Operator × List Node)
  /-- An operator has been read and its right operand has not. -/
  isAwaiting : Bool
deriving Repr

namespace Assembly

/-- The fields before the first part. -/
def empty : Assembly := ⟨[], none, false⟩

/-- Ends the run, if there is one, and puts its node behind the others. -/
def flush (assembly : Assembly) : Assembly :=
  match assembly.run? with
  | some (operator, operands) =>
      { assembly with nodes := assembly.nodes ++ [operator.combine operands], run? := none }
  | none => assembly

/-- Adds an item.  An operand that is waited for goes to the run, and is lost if there is none. -/
def pushItem (node : Node) (assembly : Assembly) : Assembly :=
  if assembly.isAwaiting then
    { assembly with
      run? := assembly.run?.map fun (operator, operands) => (operator, operands ++ [node])
      isAwaiting := false }
  else
    let flushed := assembly.flush
    { flushed with nodes := flushed.nodes ++ [node] }

/--
Adds an operator.  The run is taken out of its field first, and without one the latest node is
taken off the others; the fields are what they are by then when the operator is refused.
-/
def pushOperator (operator : Operator) (assembly : Assembly) :
    Except SyntaxFault Unit × Assembly :=
  if assembly.isAwaiting then (.error (.noLeftOperand operator), assembly)
  else
    let taken := { assembly with run? := none }
    match assembly.run? with
    | some (pending, operands) =>
        let continued := if pending = operator then operands else [pending.combine operands]
        (.ok (), { taken with run? := some (operator, continued), isAwaiting := true })
    | none =>
        let popped := { taken with nodes := taken.nodes.dropLast }
        match taken.nodes.getLast? with
        | some left => (.ok (), { popped with run? := some (operator, [left]), isAwaiting := true })
        | none => (.error (.noLeftOperand operator), popped)

/-- The operator that waits for its right operand. -/
def danglingOperator? (assembly : Assembly) : Option Operator :=
  if assembly.isAwaiting then assembly.run?.map Prod.fst else none

/-- The nodes, with the node of the run behind them if there is one. -/
def finish (assembly : Assembly) : List Node := assembly.flush.nodes

/-- The nodes of the sequence if it ends here; no operator may wait for its right operand. -/
def close (assembly : Assembly) : Except SyntaxFault (List Node) :=
  match assembly.danglingOperator? with
  | some operator => .error (.noRightOperand operator)
  | none => .ok assembly.finish

/-- Adds a part; the result says whether it was refused. -/
def take (assembly : Assembly) : SequencePart → Except SyntaxFault Unit × Assembly
  | .item node => (.ok (), assembly.pushItem node)
  | .operator operator => assembly.pushOperator operator

/-- The fields after some parts, refused ones among them. -/
def after (assembly : Assembly) (parts : List SequencePart) : Assembly :=
  parts.foldl (fun assembly part => (assembly.take part).2) assembly

/-- The parts that are not refused. -/
def accepted (assembly : Assembly) : List SequencePart → List SequencePart
  | [] => []
  | part :: rest =>
      match assembly.take part with
      | (.ok _, later) => part :: later.accepted rest
      | (.error _, later) => later.accepted rest

end Assembly

namespace Chain

/-- The chain with one more part. -/
def take (chain : Chain) : SequencePart → Except SyntaxFault Chain
  | .item node => .ok (chain.push node)
  | .operator operator => chain.join operator

/-- The chain after some parts; a part that is refused is passed over. -/
def after (chain : Chain) : List SequencePart → Chain
  | [] => chain
  | part :: rest =>
      match chain.take part with
      | .ok later => later.after rest
      | .error _ => chain.after rest

/-- What the fields hold when a chain is kept in them. -/
def assembly : Chain → Assembly
  | .settled nodes => ⟨nodes.reverse, none, false⟩
  | .waiting nodes operator operands => ⟨nodes.reverse, some (operator, operands.reverse), true⟩
  | .joined nodes operator operands => ⟨nodes.reverse, some (operator, operands.reverse), false⟩

end Chain

end TextTemplate
