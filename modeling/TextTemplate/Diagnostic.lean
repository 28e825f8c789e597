import TextTemplate.Batch
import TextTemplate.Count.Checked
import TextTemplate.Pattern.SyntaxError
import TextTemplate.Text.Lines

/-!
# Diagnostics

A diagnostic is a failure in the form in which it is told to a person.  One about a pattern
can be shown with the line it concerns and a caret below the place.
-/

namespace TextTemplate

/-- A failure ready to be told. -/
inductive Diagnostic where
  /-- A pattern is malformed. -/
  | malformed (message : String) (position : Position)
  /-- A batch could not find enough distinct texts. -/
  | uniqueness (error : UniquenessError)
  /-- A tree does not support an operation. -/
  | unsupported (message : String)
deriving DecidableEq, Repr

namespace Diagnostic

/-- The diagnostic for an error in a pattern. -/
def ofSyntaxError (error : SyntaxError) : Diagnostic :=
  .malformed error.fault.message error.position

/-- The diagnostic for a tree that cannot be counted. -/
def ofCountFault (fault : CountFault) : Diagnostic := .unsupported fault.message

def isMalformed : Diagnostic → Bool
  | .malformed _ _ => true
  | _ => false

def isUniqueness : Diagnostic → Bool
  | .uniqueness _ => true
  | _ => false

def isUnsupported : Diagnostic → Bool
  | .unsupported _ => true
  | _ => false

/-- The word for the kind of a failure. -/
def kind : Diagnostic → String
  | .malformed _ _ => "syntax"
  | .uniqueness _ => "uniqueness"
  | .unsupported _ => "capability"

/-- The place of a failure in a pattern. -/
def position? : Diagnostic → Option Position
  | .malformed _ position => some position
  | _ => none

/-- A failure in one sentence. -/
def describe : Diagnostic → String
  | .malformed message position => "Syntax error at " ++ position.describe ++ ": " ++ message
  | .uniqueness error =>
      s!"Couldn't satisfy uniqueness: {error.produced} of {error.requested} distinct strings"
        ++ s!" after {error.attempts} attempts"
  | .unsupported message => "Unsupported operation: " ++ message

/-- The line of a pattern with a place in it, and a caret below the place. -/
def excerpt (pattern : List Char) (position : Position) : List Char :=
  (lines pattern).getD (position.line - 1) [] ++ '\n' ::
    (List.replicate (position.column - 1) ' ' ++ ['^', '\n'])

/-- A failure in one sentence; one about a pattern is followed by an excerpt of it. -/
def describeIn (pattern : List Char) : Diagnostic → String
  | .malformed message position =>
      (Diagnostic.malformed message position).describe ++ "\n"
        ++ String.ofList (excerpt pattern position)
  | other => other.describe

end Diagnostic

end TextTemplate
