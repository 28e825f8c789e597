import TextTemplate.Proofs.Render.Sources
import TextTemplate.Render.Exchange

/-!
# Consumption of sources

Each time that its name is asked for, a function is called once and a lazy list moves on by one
item.  Nothing else touches them.
-/

namespace TextTemplate

namespace Source

/-- What a source with a state gives, text by text, and what it is behind them. -/
inductive Produces : Source → List (List Char) → Source → Prop where
  | nothing (source : Source) : Produces source [] source
  | call {result : Nat → List Char} {calls : Nat} {texts : List (List Char)} {later : Source}
      (rest : Produces (.function result (calls + 1)) texts later) :
      Produces (.function result calls) (result calls :: texts) later
  | item {item? : Nat → Option (List Char)} {pulled : Nat} {content : List Char}
      {texts : List (List Char)} {later : Source} (found : item? pulled = some content)
      (rest : Produces (.lazy item? (pulled + 1)) texts later) :
      Produces (.lazy item? pulled) (content :: texts) later
  | exhausted {item? : Nat → Option (List Char)} {pulled : Nat} {texts : List (List Char)}
      {later : Source} (missing : item? pulled = none)
      (rest : Produces (.lazy item? pulled) texts later) :
      Produces (.lazy item? pulled) ([] :: texts) later

namespace Produces

variable {source later : Source} {texts : List (List Char)}

theorem append {middle : Source} {more : List (List Char)}
    (first : source.Produces texts middle) (second : middle.Produces more later) :
    source.Produces (texts ++ more) later := by
  induction first with
  | nothing source => exact second
  | call rest ih => exact .call (ih second)
  | item found rest ih => exact .item found (ih second)
  | exhausted missing rest ih => exact .exhausted missing (ih second)

/-- A source with a state remains one. -/
theorem not_isPlain (produces : source.Produces texts later) (stateful : ¬ source.IsPlain) :
    ¬ later.IsPlain := by
  induction produces with
  | nothing source => exact stateful
  | call rest ih => exact ih id
  | item found rest ih => exact ih id
  | exhausted missing rest ih => exact ih id

/-- The texts of a function are the results of its next calls. -/
theorem of_function {result : Nat → List Char} {calls : Nat}
    (produces : (Source.function result calls).Produces texts later) :
    later = .function result (calls + texts.length) ∧
      ∀ index (within : index < texts.length), texts[index] = result (calls + index) := by
  induction texts generalizing calls with
  | nil =>
      cases produces
      exact ⟨rfl, fun index within => absurd within (Nat.not_lt_zero index)⟩
  | cons text rest ih =>
      cases produces with
      | call produces =>
          obtain ⟨rfl, results⟩ := ih produces
          refine ⟨by rw [List.length_cons, Nat.add_assoc, Nat.add_comm 1], ?_⟩
          rintro (_ | index) within
          · rfl
          · rw [List.getElem_cons_succ, results, Nat.add_assoc, Nat.add_comm 1]

variable {item? : Nat → Option (List Char)} {pulled : Nat}

/-- An exhausted list stays where it is and gives empty texts. -/
theorem of_exhausted (missing : item? pulled = none)
    (produces : (Source.lazy item? pulled).Produces texts later) :
    later = .lazy item? pulled ∧ ∀ text ∈ texts, text = [] := by
  induction texts with
  | nil =>
      cases produces
      exact ⟨rfl, by simp⟩
  | cons text rest ih =>
      cases produces with
      | item found produces =>
          rw [missing] at found
          cases found
      | exhausted _ produces =>
          obtain ⟨same, empty⟩ := ih produces
          exact ⟨same, List.forall_mem_cons.mpr ⟨rfl, empty⟩⟩

/--
The texts of a lazy list that stays exhausted are its next items, and empty when these have run
out.  As many items are taken as there are texts, but none that does not exist.
-/
theorem of_lazy (staysExhausted : ∀ index, item? index = none → item? (index + 1) = none)
    (produces : (Source.lazy item? pulled).Produces texts later) :
    (∃ taken ≤ texts.length, later = .lazy item? (pulled + taken) ∧
        (∀ index < taken, item? (pulled + index) ≠ none) ∧
        (taken = texts.length ∨ item? (pulled + taken) = none)) ∧
      ∀ index (within : index < texts.length),
        texts[index] = (item? (pulled + index)).getD [] := by
  induction texts generalizing pulled with
  | nil =>
      cases produces
      refine ⟨⟨0, Nat.le_refl 0, rfl, ?_, .inl rfl⟩, ?_⟩
      · exact fun index within => absurd within (Nat.not_lt_zero index)
      · exact fun index within => absurd within (Nat.not_lt_zero index)
  | cons text rest ih =>
      cases produces with
      | item found produces =>
          obtain ⟨⟨taken, atMost, rfl, exist, all⟩, items⟩ := ih produces
          have shift (index : Nat) : pulled + 1 + index = pulled + (index + 1) := by omega
          simp only [shift] at exist all items ⊢
          refine ⟨⟨taken + 1, Nat.succ_le_succ atMost, rfl, ?_, ?_⟩, ?_⟩
          · rintro (_ | index) within
            · simp [found]
            · exact exist index (Nat.lt_of_succ_lt_succ within)
          · rcases all with all | missing
            · exact .inl (congrArg (· + 1) all)
            · exact .inr missing
          · rintro (_ | index) within
            · simp [found]
            · exact items index (Nat.lt_of_succ_lt_succ within)
      | exhausted missing produces =>
          -- The source itself does not move on any more, so no item behind may come back.
          have gone (index : Nat) : item? (pulled + index) = none := by
            induction index with
            | zero => exact missing
            | succ index ih => exact staysExhausted _ ih
          obtain ⟨rfl, empty⟩ := of_exhausted missing produces
          refine ⟨⟨0, Nat.zero_le _, rfl, ?_, .inr missing⟩, ?_⟩
          · exact fun index within => absurd within (Nat.not_lt_zero index)
          · intro index within
            rw [gone index]
            cases index with
            | zero => rfl
            | succ index => exact empty _ (List.getElem_mem _)

end Produces

end Source

/-! ## Sessions -/

namespace Session

variable {σ α : Type} {provider : Provider σ}

/--
From one session to a later one, every source with a state gives the texts that its name was
asked for, and nothing beyond them.
-/
def Consumes (session : Session σ) (exchanges : List Exchange) (later : Session σ) : Prop :=
  ∀ name source, session.bindings.get? name = some source → ¬ source.IsPlain →
    ∃ rest, later.bindings.get? name = some rest ∧
      source.Produces (Exchange.textsFor name exchanges) rest

namespace Consumes

variable {session middle later : Session σ} {exchanges more : List Exchange}

theorem of_bindings_eq (same : later.bindings = session.bindings)
    (draws : ∀ exchange ∈ exchanges, exchange.IsDraw) : session.Consumes exchanges later := by
  intro name source bound _
  have none : Exchange.textsFor name exchanges = [] := by
    apply List.filterMap_eq_nil_iff.mpr
    intro exchange member
    cases exchange with
    | resolve asked answer => exact absurd rfl (draws _ member asked answer)
    | index bound answer => rfl
    | between low high answer => rfl
    | shuffle characters answer => rfl
  rw [none, same]
  exact ⟨source, bound, .nothing source⟩

theorem append (first : session.Consumes exchanges middle)
    (second : middle.Consumes more later) : session.Consumes (exchanges ++ more) later := by
  intro name source bound stateful
  obtain ⟨between, boundBetween, produces⟩ := first name source bound stateful
  obtain ⟨rest, boundLater, producesMore⟩ :=
    second name between boundBetween (produces.not_isPlain stateful)
  refine ⟨rest, boundLater, ?_⟩
  rw [Exchange.textsFor, List.filterMap_append]
  exact produces.append producesMore

/-- A draw in front uses nothing. -/
theorem behind_draw {exchange : Exchange} (draws : exchange.IsDraw)
    (rest : middle.Consumes more later) (same : middle.bindings = session.bindings) :
    session.Consumes (exchange :: more) later :=
  (of_bindings_eq same (List.forall_mem_singleton.mpr draws)).append rest

end Consumes

/-- Asking for one name leaves the other names alone. -/
theorem resolve_get?_of_ne (provider : Provider σ) {name other : List Char}
    (differ : other ≠ name) (session : Session σ) :
    (session.resolve provider name).2.bindings.get? other = session.bindings.get? other := by
  unfold resolve
  split
  · rfl
  · rfl
  · rfl
  · exact session.bindings.get?_insert_of_ne _ differ
  · split
    · exact session.bindings.get?_insert_of_ne _ differ
    · rfl

/-- Asking for the name of a source with a state uses it once. -/
theorem exists_resolve_produces (provider : Provider σ) {name : List Char} {source : Source}
    {session : Session σ} (bound : session.bindings.get? name = some source)
    (stateful : ¬ source.IsPlain) :
    ∃ rest, (session.resolve provider name).2.bindings.get? name = some rest ∧
      source.Produces [(session.resolve provider name).1] rest := by
  unfold resolve
  rw [bound]
  cases source with
  | text content => exact absurd trivial stateful
  | choices options => exact absurd trivial stateful
  | function result calls =>
      exact ⟨_, session.bindings.get?_insert_self name _, .call (.nothing _)⟩
  | lazy item? pulled =>
      cases next : item? pulled with
      | none =>
          simp only [next]
          exact ⟨_, bound, .exhausted next (.nothing _)⟩
      | some content =>
          simp only [next]
          exact ⟨_, session.bindings.get?_insert_self name _, .item next (.nothing _)⟩

theorem resolve_consumes (name : List Char) (session : Session σ) :
    session.Consumes [.resolve name (session.resolve provider name).1]
      (session.resolve provider name).2 := by
  intro other source bound stateful
  by_cases same : name = other
  · subst same
    obtain ⟨rest, boundLater, produces⟩ := exists_resolve_produces provider bound stateful
    refine ⟨rest, boundLater, ?_⟩
    simpa [Exchange.textsFor, Exchange.textFor?] using produces
  · rw [resolve_get?_of_ne provider (Ne.symm same)]
    refine ⟨source, bound, ?_⟩
    simpa [Exchange.textsFor, Exchange.textFor?, same] using .nothing source

/-- Following a recipe uses a source as often as its name is asked for. -/
theorem follow_consumes (recipe : Recipe α) (session : Session σ) :
    session.Consumes (session.exchanges provider recipe)
      (session.follow provider recipe).2 := by
  induction recipe generalizing session with
  | done value => exact .of_bindings_eq rfl (by simp [exchanges])
  | index bound next ih => exact .behind_draw nofun (ih _ _) rfl
  | between low high next ih => exact .behind_draw nofun (ih _ _) rfl
  | shuffle characters next ih => exact .behind_draw nofun (ih _ _) rfl
  | resolve name next ih => exact (resolve_consumes name session).append (ih _ _)

end Session

end TextTemplate
