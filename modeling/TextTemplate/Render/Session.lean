import TextTemplate.Random.Provider
import TextTemplate.Random.Recipe
import TextTemplate.Render.Bindings
import TextTemplate.Render.Event

/-!
# Sessions

A session is what successive renderings share: the state of the randomness, the bindings and
the events so far.  Following a recipe in a session answers its questions one by one.
-/

namespace TextTemplate

/-- What renderings share; events stand latest first. -/
structure Session (σ : Type) where
  randomness : σ
  bindings : Bindings := .empty
  events : List Event := []

namespace Session

variable {σ α : Type}

/-- Adds an event. -/
def note (event : Event) (session : Session σ) : Session σ :=
  { session with events := event :: session.events }

/-- Binds a name. -/
def bindName (name : List Char) (source : Source) (session : Session σ) : Session σ :=
  { session with bindings := session.bindings.insert name source }

/-- The text for a name, for one use of it.  A name without a binding gives no text. -/
def resolve (provider : Provider σ) (name : List Char) (session : Session σ) :
    List Char × Session σ :=
  match session.bindings.get? name with
  | none => ([], session)
  | some (.text content) => (content, session)
  | some (.choices options) =>
      let (chosen, randomness) := provider.choose? options session.randomness
      (chosen.getD [], { session with randomness := randomness })
  | some (.function result calls) =>
      (result calls, session.bindName name (.function result (calls + 1)))
  | some (.lazy item? pulled) =>
      match item? pulled with
      | some content => (content, session.bindName name (.lazy item? (pulled + 1)))
      | none => ([], session.note .lazySourceExhausted)

/-- Follows a recipe to its value. -/
def follow (provider : Provider σ) : Recipe α → Session σ → α × Session σ
  | .done value, session => (value, session)
  | .index bound next, session =>
      let (answer, randomness) := provider.nextIndex bound session.randomness
      follow provider (next answer) { session with randomness := randomness }
  | .between low high next, session =>
      let (answer, randomness) := provider.integer low high session.randomness
      follow provider (next answer) { session with randomness := randomness }
  | .shuffle characters next, session =>
      let (answer, randomness) := provider.rearrange characters session.randomness
      follow provider (next answer) { session with randomness := randomness }
  | .resolve name next, session =>
      let (answer, session) := session.resolve provider name
      follow provider (next answer) session

/-- Follows a recipe with nothing bound, and puts the bindings back afterwards. -/
def followBare (provider : Provider σ) (recipe : Recipe α) (session : Session σ) :
    α × Session σ :=
  let (value, later) := follow provider recipe { session with bindings := .empty }
  (value, { later with bindings := session.bindings })

/-- Following a recipe and then the next is following the two in one. -/
theorem follow_bind {β : Type} (provider : Provider σ) (recipe : Recipe α)
    (next : α → Recipe β) (session : Session σ) :
    follow provider (recipe.bind next) session =
      follow provider (next (follow provider recipe session).1)
        (follow provider recipe session).2 := by
  induction recipe generalizing session with
  | done value => rfl
  | index bound following ih => exact ih _ _
  | between low high following ih => exact ih _ _
  | shuffle characters following ih => exact ih _ _
  | resolve name following ih => exact ih _ _

end Session

end TextTemplate
