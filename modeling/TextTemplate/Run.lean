import TextTemplate.Generator
import TextTemplate.Render.Exchange

/-!
# Runs

A run makes requests to a generator, one after the other in one session.  It can be recorded:
the requests are carried out by the very same batches, over a session that keeps what was
asked and answered.
-/

namespace TextTemplate

/-- What can be asked of a generator. -/
inductive Request where
  /-- One text. -/
  | render
  /-- One text with nothing bound. -/
  | renderBare
  /-- Some texts. -/
  | list (requested : Nat)
  /-- Some distinct texts. -/
  | distinct (requested : Nat)
  /-- A set of texts, given up after `patience` renderings. -/
  | set (patience requested : Nat)
  /-- The number of texts. -/
  | count
deriving DecidableEq, Repr

/-- A rendering or a count in a run, with what was asked and answered. -/
inductive Pass where
  | rendering (exchanges : List Exchange) (text : List Char)
  | counting (exchanges : List Exchange)
deriving DecidableEq, Repr

namespace Pass

def exchanges : Pass → List Exchange
  | .rendering exchanges _ => exchanges
  | .counting exchanges => exchanges

/-- A rendering asks as its tree says; a count asks for no name. -/
def IsOf (tree : Node) : Pass → Prop
  | .rendering exchanges text => tree.RendersBy exchanges text
  | .counting exchanges => ∀ exchange ∈ exchanges, exchange.IsDraw

end Pass

/-- A session and the passes so far; renderings with nothing bound are left out of them. -/
structure Record (σ : Type) where
  session : Session σ
  passes : List Pass := []

namespace Record

variable {σ : Type}

/-- All exchanges of the passes, one after the other. -/
def exchanges (record : Record σ) : List Exchange := record.passes.flatMap Pass.exchanges

/-- Adds an event. -/
def note (event : Event) (record : Record σ) : Record σ :=
  { record with session := record.session.note event }

/-- One text. -/
def render (generator : Generator σ) (record : Record σ) : List Char × Record σ :=
  let (text, session) := generator.render record.session
  let exchanges := record.session.exchanges generator.provider generator.tree.render
  (text, ⟨session, record.passes ++ [.rendering exchanges text]⟩)

/-- How many texts there are, if that can be told. -/
def count (generator : Generator σ) (record : Record σ) : Counted × Record σ :=
  let (counted, session) := generator.count record.session
  let exchanges := record.session.exchanges generator.provider generator.tree.count
  (counted, ⟨session, record.passes ++ [.counting exchanges]⟩)

end Record

/-- The event with which a distinct batch ends. -/
def Batch.closingEvent {σ α : Type} (batch : Batch σ α) (requested : Nat) : Event :=
  if batch.items.length < requested then
    .budgetExhausted batch.items.length requested batch.attempts
  else .uniqueBatch requested batch.attempts

namespace Generator

variable {σ : Type}

/-- The session behind a request; nothing when a set is given up. -/
def perform? (generator : Generator σ) (session : Session σ) : Request → Option (Session σ)
  | .render => some (generator.render session).2
  | .renderBare => some (generator.renderBare session).2
  | .list requested => some (generator.renderList requested session).session
  | .distinct requested => some (generator.renderDistinct requested session).session
  | .set patience requested => (generator.renderSet? patience requested session).map (·.2)
  | .count => some (generator.count session).2

/-- The session behind some requests. -/
def run? (generator : Generator σ) (requests : List Request) (session : Session σ) :
    Option (Session σ) :=
  requests.foldlM generator.perform? session

/-- The record behind a request. -/
def record? (generator : Generator σ) (record : Record σ) : Request → Option (Record σ)
  | .render => some (record.render generator).2
  | .renderBare => some { record with session := (generator.renderBare record.session).2 }
  | .list requested => some (Batch.take (Record.render generator) requested record).state
  | .distinct requested =>
      let maxAttempts := Batch.budget requested generator.config.attemptsFactor
      let batch := Batch.distinct (Record.render generator) requested maxAttempts record
      some (batch.state.note (batch.closingEvent requested))
  | .set patience requested =>
      (Batch.gather (Record.render generator) requested patience ∅ record).map (·.2)
  | .count => some (record.count generator).2

/-- The record of some requests. -/
def recordAll? (generator : Generator σ) (requests : List Request) (session : Session σ) :
    Option (Record σ) :=
  requests.foldlM generator.record? ⟨session, []⟩

end Generator

end TextTemplate
