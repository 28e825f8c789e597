import TextTemplate.Proofs.Random.Traces
import TextTemplate.Proofs.Render.Sources

/-!
# Runs and their traces

A run asks for indices below some bounds, and as long as each index stays below its bound the
indices are a trace of what was run.  Read from a list, a trace leads through the run again.
-/

namespace TextTemplate

variable {α σ : Type} {bindings : Bindings}

/-- Only texts and choices are resolved. -/
def Question.IsPlainIn (bindings : Bindings) : Question → Prop
  | .resolve name => bindings.IsPlainAt name
  | _ => True

theorem Bindings.IsPlain.asksOnly (plain : bindings.IsPlain) (recipe : Recipe α) :
    recipe.AsksOnly (Question.IsPlainIn bindings) := by
  induction recipe with
  | done value => trivial
  | index bound next ih => exact ⟨trivial, ih⟩
  | between low high next ih => exact ⟨trivial, ih⟩
  | shuffle characters next ih => exact ⟨trivial, ih⟩
  | resolve name next ih => exact ⟨plain.isPlainAt name, ih⟩

namespace Session

variable {pick : Nat → σ → Nat × σ} {label : String}

theorem follow_between (low high : Nat) (next : Nat → Recipe α) (session : Session σ) :
    session.follow (Provider.ofIndex pick label) (.between low high next) =
      Session.follow (Provider.ofIndex pick label)
        (next (integerWith Pick.scripted low high
          (Pick.answers pick (integerBounds low high) session.randomness).1).1)
        { session with randomness :=
          (Pick.answers pick (integerBounds low high) session.randomness).2 } := by
  rw [follow]
  simp only [Provider.ofIndex]
  rw [integerWith_eq_scripted]

theorem follow_shuffle (characters : List Char) (next : List Char → Recipe α)
    (session : Session σ) :
    session.follow (Provider.ofIndex pick label) (.shuffle characters next) =
      Session.follow (Provider.ofIndex pick label)
        (next (shuffleWith Pick.scripted characters
          (Pick.answers pick (shuffleBounds characters.length) session.randomness).1).1)
        { session with randomness :=
          (Pick.answers pick (shuffleBounds characters.length) session.randomness).2 } := by
  rw [follow]
  simp only [Provider.ofIndex]
  rw [shuffleWith_eq_scripted]

theorem follow_resolve (provider : Provider σ) (name : List Char) (next : List Char → Recipe α)
    (session : Session σ) :
    session.follow provider (.resolve name next) =
      Session.follow provider (next (session.resolve provider name).1)
        (session.resolve provider name).2 :=
  rfl

/--
Following a recipe comes down to asking for some bounds: they decide the randomness that is
left, and the answers to them are a trace unless one of them is out of bounds.
-/
def FollowsTrace (pick : Nat → σ → Nat × σ) (label : String) (recipe : Recipe α)
    (session : Session σ) : Prop :=
  ∃ bounds,
    (session.follow (Provider.ofIndex pick label) recipe).2 =
      { session with randomness := (Pick.answers pick bounds session.randomness).2 } ∧
    (recipe.AsksOnly Question.IsAnswerable → ∀ bound ∈ bounds, 0 < bound) ∧
    (WithinBounds bounds (Pick.answers pick bounds session.randomness).1 →
      Trace session.bindings.Chooses recipe (Pick.answers pick bounds session.randomness).1
        (session.follow (Provider.ofIndex pick label) recipe).1)

/-- The bounds of one question stand before those of what its answer leads to. -/
theorem FollowsTrace.step {recipe later : Recipe α} {session : Session σ} (bounds : List Nat)
    (follows : session.follow (Provider.ofIndex pick label) recipe =
      Session.follow (Provider.ofIndex pick label) later
        { session with randomness := (Pick.answers pick bounds session.randomness).2 })
    (answerable : recipe.AsksOnly Question.IsAnswerable →
      (∀ bound ∈ bounds, 0 < bound) ∧ later.AsksOnly Question.IsAnswerable)
    (leads : ∀ {answers value},
      WithinBounds bounds (Pick.answers pick bounds session.randomness).1 →
      Trace session.bindings.Chooses later answers value →
      Trace session.bindings.Chooses recipe
        ((Pick.answers pick bounds session.randomness).1 ++ answers) value)
    (rest : FollowsTrace pick label later
      { session with randomness := (Pick.answers pick bounds session.randomness).2 }) :
    FollowsTrace pick label recipe session := by
  rcases rest with ⟨laterBounds, left, positive, trace⟩
  refine ⟨bounds ++ laterBounds, ?_, ?_, ?_⟩
  · rw [follows, left, Pick.answers_append]
  · intro asks bound member
    obtain ⟨first, asksLater⟩ := answerable asks
    rcases List.mem_append.mp member with member | member
    · exact first bound member
    · exact positive asksLater bound member
  · intro within
    rw [Pick.answers_append] at within ⊢
    obtain ⟨first, withinLater⟩ :=
      (withinBounds_append_iff (Pick.length_answers pick bounds _)).mp within
    rw [follows]
    exact leads first (trace withinLater)

/-- Every recipe that resolves only texts and choices is followed along a trace. -/
theorem followsTrace {recipe : Recipe α} {session : Session σ}
    (plain : recipe.AsksOnly (Question.IsPlainIn session.bindings)) :
    FollowsTrace pick label recipe session := by
  induction recipe generalizing session with
  | done value =>
      refine ⟨[], rfl, ?_, fun within => .done value⟩
      intro asks bound member
      cases member
  | index bound next ih =>
      refine .step [bound] rfl ?_ ?_ (ih _ (plain.2 _))
      · intro asks
        exact ⟨List.forall_mem_singleton.mpr asks.1, asks.2 _⟩
      · intro answers value within trace
        exact .index within.1 trace
  | between low high next ih =>
      refine .step (integerBounds low high) (follow_between low high next session) ?_ ?_
        (ih _ (plain.2 _))
      · intro asks
        exact ⟨integerBounds_pos, asks.2 _⟩
      · intro answers value within trace
        exact .between within trace
  | shuffle characters next ih =>
      refine .step (shuffleBounds characters.length) (follow_shuffle characters next session)
        ?_ ?_ (ih _ (plain.2 _))
      · intro asks
        exact ⟨shuffleBounds_pos _, asks.2 _⟩
      · intro answers value within trace
        exact .shuffle within trace
  | resolve name next ih =>
      obtain ⟨text, resolved, chooses⟩ := @resolve_ofIndex σ pick label name session plain.1
      have follows := follow_resolve (Provider.ofIndex pick label) name next session
      rw [resolved] at follows
      refine .step (session.bindings.bounds name) follows ?_ ?_ (ih _ (plain.2 _))
      · intro asks
        exact ⟨Bindings.bounds_pos, asks.2 _⟩
      · intro answers value within trace
        exact .resolve (chooses within) trace

/-- A picker that stays below its bounds leads an answerable recipe to one of its values. -/
theorem yields_follow {recipe : Recipe α} {session : Session σ}
    (below : Pick.StaysBelow pick) (answerable : recipe.AsksOnly Question.IsAnswerable)
    (plain : recipe.AsksOnly (Question.IsPlainIn session.bindings)) :
    recipe.Yields session.bindings.Chooses
      (session.follow (Provider.ofIndex pick label) recipe).1 := by
  have follows : FollowsTrace pick label recipe session := followsTrace plain
  rcases follows with ⟨bounds, left, positive, trace⟩
  exact ⟨_, trace (below.answers (positive answerable) _)⟩

end Session

/-! ## Answers from a list -/

/-- Indices from a list; the bounds asked for are kept beside it, latest first. -/
def scriptedProvider : Provider (List Nat × List Nat) :=
  Provider.ofIndex (Pick.recorded Pick.scripted) Provider.defaultName

/--
Answers that lead a recipe to a value: all of them are asked for, and each lies below the
bound that it was asked for with.
-/
def Recipe.IsDrivenBy (recipe : Recipe α) (bindings : Bindings) (answers : List Nat)
    (value : α) : Prop :=
  let run := Session.follow scriptedProvider recipe ⟨(answers, []), bindings, []⟩
  run.1 = value ∧ run.2.randomness.1 = [] ∧ WithinBounds run.2.randomness.2.reverse answers

/-- A trace, read from a list, leads through the recipe again. -/
theorem Trace.follow {recipe : Recipe α} {answers : List Nat} {value : α}
    (trace : Trace bindings.Chooses recipe answers value) :
    ∃ bounds, WithinBounds bounds answers ∧ ∀ later asked events,
      Session.follow scriptedProvider recipe ⟨(answers ++ later, asked), bindings, events⟩ =
        (value, ⟨(later, bounds.reverse ++ asked), bindings, events⟩) := by
  induction trace with
  | done value => exact ⟨[], trivial, fun later asked events => rfl⟩
  | @index bound answer answers next value inBounds rest ih =>
      rcases ih with ⟨bounds, within, leads⟩
      refine ⟨bound :: bounds, ⟨inBounds, within⟩, ?_⟩
      intro later asked events
      rw [List.reverse_cons, List.append_assoc]
      exact leads later (bound :: asked) events
  | @between low high indices answers next value inBounds rest ih =>
      rcases ih with ⟨bounds, within, leads⟩
      refine ⟨integerBounds low high ++ bounds, inBounds.append within, ?_⟩
      intro later asked events
      rw [scriptedProvider, Session.follow_between, List.append_assoc,
        Pick.answers_recorded_scripted inBounds, List.reverse_append, List.append_assoc]
      exact leads later _ events
  | @shuffle characters indices answers next value inBounds rest ih =>
      rcases ih with ⟨bounds, within, leads⟩
      refine ⟨shuffleBounds characters.length ++ bounds, inBounds.append within, ?_⟩
      intro later asked events
      rw [scriptedProvider, Session.follow_shuffle, List.append_assoc,
        Pick.answers_recorded_scripted inBounds, List.reverse_append, List.append_assoc]
      exact leads later _ events
  | @resolve name text indices answers next value chosen rest ih =>
      rcases ih with ⟨bounds, within, leads⟩
      refine ⟨bindings.bounds name ++ bounds, chosen.withinBounds.append within, ?_⟩
      intro later asked events
      obtain ⟨found, resolved, chooses⟩ := @Session.resolve_ofIndex _
        (Pick.recorded Pick.scripted) Provider.defaultName name
        ⟨(indices ++ (answers ++ later), asked), bindings, events⟩ chosen.isPlainAt
      rw [Pick.answers_recorded_scripted chosen.withinBounds] at resolved chooses
      obtain rfl := chosen.unique (chooses chosen.withinBounds)
      rw [Session.follow_resolve, List.append_assoc, scriptedProvider, resolved,
        List.reverse_append, List.append_assoc]
      exact leads later _ events

/-- Exactly the traces of a recipe that resolves only texts and choices drive it. -/
theorem Recipe.isDrivenBy_iff {recipe : Recipe α} {answers : List Nat} {value : α}
    (plain : recipe.AsksOnly (Question.IsPlainIn bindings)) :
    recipe.IsDrivenBy bindings answers value ↔
      Trace bindings.Chooses recipe answers value := by
  constructor
  · -- The bounds that were kept are those of the trace, so the list was read to its end.
    rintro ⟨rfl, used, within⟩
    have follows : Session.FollowsTrace (Pick.recorded Pick.scripted) Provider.defaultName
      recipe ⟨(answers, []), bindings, []⟩ := Session.followsTrace plain
    rcases follows with ⟨bounds, left, -, trace⟩
    rw [scriptedProvider, left, Pick.answers_recorded_bounds, List.append_nil,
      List.reverse_reverse] at within
    have read := Pick.answers_recorded_scripted within [] []
    rw [List.append_nil] at read
    rw [read] at trace
    exact trace within
  · intro trace
    obtain ⟨bounds, within, leads⟩ := trace.follow
    have run := leads [] [] []
    rw [List.append_nil, List.append_nil] at run
    unfold IsDrivenBy
    rw [run]
    exact ⟨rfl, rfl, by rwa [List.reverse_reverse]⟩

end TextTemplate
