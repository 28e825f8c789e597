import TextTemplate.Pattern.Chain
import TextTemplate.Pattern.Limits
import TextTemplate.Pattern.Token

/-!
# Open groups

While a pattern is being read, every open group has a chain of its own.  A parenthesis opens
or closes the innermost group, and everything else joins its chain.
-/

namespace TextTemplate

/-- The chain being read and the chains of the groups around it, innermost first. -/
structure Nesting where
  current : Chain
  enclosing : List Chain
deriving Repr

namespace Nesting

/-- No group is open and nothing has been read. -/
def root : Nesting := ⟨.empty, []⟩

/-- Puts a node behind what the innermost group holds. -/
def push (node : Node) (nesting : Nesting) : Nesting :=
  { nesting with current := nesting.current.push node }

/-- What one more token makes of the open groups. -/
def take (limits : Limits) (nesting : Nesting) : Token → Except SyntaxFault Nesting
  | .leaf node => .ok (nesting.push node)
  | .operator operator =>
      (nesting.current.join operator).map fun chain => { nesting with current := chain }
  | .openGroup =>
      if nesting.enclosing.length < limits.maxDepth then
        .ok ⟨.empty, nesting.current :: nesting.enclosing⟩
      else .error (.nestedTooDeep limits.maxDepth)
  | .closeGroup =>
      match nesting.enclosing with
      | [] => .error .extraClosing
      | outer :: enclosing =>
          nesting.current.finish.map fun nodes => ⟨outer.push (.sequence nodes), enclosing⟩

/-- The tree of a pattern that ends here. -/
def finish (nesting : Nesting) : Except SyntaxFault Node :=
  nesting.current.finish.bind fun nodes =>
    if nesting.enclosing.isEmpty then .ok (.sequence nodes) else .error .missingClosing

end Nesting

end TextTemplate
