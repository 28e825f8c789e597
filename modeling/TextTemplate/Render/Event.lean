/-!
# Events worth a log line
-/

namespace TextTemplate

/-- How much an event matters. -/
inductive Severity where
  | debug
  | warning
deriving DecidableEq, Repr

/-- The word for a severity at the front of a log line. -/
def Severity.word : Severity → String
  | .debug => "DEBUG"
  | .warning => "WARN"

/-- What happens while patterns are read and texts are rendered. -/
inductive Event where
  | parsing
  | parsed (nodes : Nat)
  /-- A lazy source had no item left. -/
  | lazySourceExhausted
  /-- A unique batch ran out of attempts. -/
  | budgetExhausted (produced requested attempts : Nat)
  /-- A unique batch was completed. -/
  | uniqueBatch (count attempts : Nat)
deriving DecidableEq, Repr

namespace Event

def severity : Event → Severity
  | .budgetExhausted _ _ _ => .warning
  | _ => .debug

def message : Event → String
  | .parsing => "parsing template"
  | .parsed nodes => s!"parsed template into {nodes} nodes"
  | .lazySourceExhausted => "lazy source exhausted, rendering empty string"
  | .budgetExhausted produced requested attempts =>
      s!"uniqueness budget exhausted: {produced} of {requested} after {attempts} attempts"
  | .uniqueBatch count attempts => s!"rendered {count} unique strings in {attempts} attempts"

/-- The log line for an event. -/
def line (event : Event) : String :=
  event.severity.word ++ " " ++ event.message

end Event

end TextTemplate
