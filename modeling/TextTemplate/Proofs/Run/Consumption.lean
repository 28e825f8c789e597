import TextTemplate.Proofs.Batch.Related
import TextTemplate.Proofs.Count.Questions
import TextTemplate.Proofs.Render.Consumption
import TextTemplate.Proofs.Render.Exchanges
import TextTemplate.Run

/-!
# Sources over a run

Over any run a source with a state is used once for each executed reference to its name, in
order, whatever becomes of the rendered texts.  Counts use nothing.
-/

namespace TextTemplate

variable {σ : Type}

namespace Record

/--
A record tells what led from a start to its session: its passes are those of a tree, and the
sources were used as they say.
-/
structure Accounts (tree : Node) (start : Session σ) (record : Record σ) : Prop where
  passes : ∀ pass ∈ record.passes, pass.IsOf tree
  consumed : start.Consumes record.exchanges record.session

namespace Accounts

variable {tree : Node} {start later : Session σ} {record : Record σ}

theorem begin (tree : Node) (start : Session σ) : Accounts tree start ⟨start, []⟩ :=
  ⟨by simp, .of_bindings_eq rfl (by simp [exchanges])⟩

/-- One more pass. -/
theorem add (accounts : Accounts tree start record) {pass : Pass} (isOf : pass.IsOf tree)
    (consumed : record.session.Consumes pass.exchanges later) :
    Accounts tree start ⟨later, record.passes ++ [pass]⟩ := by
  refine ⟨?_, ?_⟩
  · intro other member
    rcases List.mem_append.mp member with earlier | added
    · exact accounts.passes other earlier
    · rwa [List.mem_singleton.mp added]
  · rw [exchanges, List.flatMap_append, List.flatMap_singleton]
    exact accounts.consumed.append consumed

/-- A change that leaves the bindings alone needs no pass. -/
theorem keep (accounts : Accounts tree start record)
    (same : later.bindings = record.session.bindings) :
    Accounts tree start ⟨later, record.passes⟩ := by
  refine ⟨accounts.passes, ?_⟩
  have nothing : record.session.Consumes [] later := .of_bindings_eq same (by simp)
  have still := accounts.consumed.append nothing
  rwa [List.append_nil] at still

end Accounts

/-- A record of the way from a start to a session. -/
def Reaches (tree : Node) (start : Session σ) (record : Record σ) (session : Session σ) :
    Prop :=
  record.session = session ∧ record.Accounts tree start

theorem Reaches.note {tree : Node} {start session : Session σ} {record : Record σ}
    (reaches : Reaches tree start record session) (event : Event) :
    Reaches tree start (record.note event) (session.note event) :=
  ⟨congrArg (Session.note event) reaches.1, reaches.2.keep rfl⟩

end Record

namespace Generator

variable (generator : Generator σ) {start session : Session σ} {record : Record σ}

/-- A recorded rendering is a rendering with one more pass. -/
theorem record_render_alike :
    Batch.StepsAlike (Record.render generator) generator.render
      (Record.Reaches generator.tree start) := by
  rintro record _ ⟨rfl, accounts⟩
  refine ⟨rfl, rfl, accounts.add ?_ (Session.follow_consumes _ _)⟩
  exact generator.tree.render_rendersBy record.session

theorem record_count (accounts : record.Accounts generator.tree start) :
    Record.Reaches generator.tree start (record.count generator).2
      (generator.count record.session).2 := by
  refine ⟨rfl, accounts.add ?_ (Session.follow_consumes _ _)⟩
  intro exchange member
  exact (Session.exchanges_of_asksOnly generator.tree.count_isDraw record.session
    exchange member).exchange

theorem renderDistinct_session (requested : Nat) (session : Session σ) :
    (generator.renderDistinct requested session).session =
      let maxAttempts := Batch.budget requested generator.config.attemptsFactor
      let batch := Batch.distinct generator.render requested maxAttempts session
      batch.state.note (batch.closingEvent requested) := by
  have render : generator.render = Session.follow generator.provider generator.tree.render :=
    rfl
  unfold renderDistinct Batch.closingEvent
  simp only [render]
  split <;> rfl

theorem renderSet?_session (patience requested : Nat) (session : Session σ) :
    (generator.renderSet? patience requested session).map (·.2) =
      (Batch.gather generator.render requested patience ∅ session).map (·.2) := by
  rw [renderSet?, Option.map_map]
  rfl

/-- A recorded request is the request, and the record accounts for it. -/
theorem record?_alike (reaches : Record.Reaches generator.tree start record session)
    (request : Request) :
    Option.Rel (Record.Reaches generator.tree start) (generator.record? record request)
      (generator.perform? session request) := by
  have steps : Batch.StepsAlike (Record.render generator) generator.render
      (Record.Reaches generator.tree start) := generator.record_render_alike
  cases request with
  | render => exact .some (steps _ _ reaches).2
  | renderBare =>
      obtain ⟨rfl, accounts⟩ := reaches
      exact .some ⟨rfl, accounts.keep rfl⟩
  | list requested => exact .some (steps.take reaches requested).state
  | distinct requested =>
      have alike := steps.distinct reaches requested
        (Batch.budget requested generator.config.attemptsFactor)
      rw [record?, perform?, renderDistinct_session, Batch.closingEvent, alike.items,
        alike.attempts]
      exact .some (alike.state.note _)
  | set patience requested =>
      have alike := steps.gather reaches requested patience ∅
      rw [record?, perform?, renderSet?_session]
      revert alike
      generalize Batch.gather (Record.render generator) requested patience ∅ record = gathered
      generalize Batch.gather generator.render requested patience ∅ session = gathered'
      rintro (⟨-, goesOn⟩ | _)
      · exact .some goesOn
      · exact .none
  | count =>
      obtain ⟨rfl, accounts⟩ := reaches
      exact .some (generator.record_count accounts)

theorem foldlM_record?_alike (requests : List Request)
    (reaches : Record.Reaches generator.tree start record session) :
    Option.Rel (Record.Reaches generator.tree start)
      (requests.foldlM generator.record? record) (generator.run? requests session) := by
  induction requests generalizing record session with
  | nil => exact .some reaches
  | cons request rest ih =>
      have alike := generator.record?_alike reaches request
      rw [run?, List.foldlM_cons, List.foldlM_cons]
      revert alike
      generalize generator.record? record request = behind
      generalize generator.perform? session request = behind'
      rintro (goesOn | _)
      · exact ih goesOn
      · exact .none

/--
The sources with a state over a run that ends.  The run can be recorded; every rendering in it
executed the references that its tree calls for, and no count executed any.  The executed
references to a function give the results of its next calls, as many as they are.  Those to a
lazy list that stays exhausted give its next items, and empty texts when these have run out;
one item is taken for each reference, as long as there is one.
-/
theorem run_consumes_sources (requests : List Request) (session finish : Session σ)
    (ran : generator.run? requests session = some finish) :
    ∃ record : Record σ, generator.recordAll? requests session = some record ∧
      record.session = finish ∧ (∀ pass ∈ record.passes, pass.IsOf generator.tree) ∧
      (∀ name result calls, session.bindings.get? name = some (.function result calls) →
        let texts := Exchange.textsFor name record.exchanges
        finish.bindings.get? name = some (.function result (calls + texts.length)) ∧
          ∀ index (within : index < texts.length), texts[index] = result (calls + index)) ∧
      ∀ name item? pulled, session.bindings.get? name = some (.lazy item? pulled) →
        (∀ index, item? index = none → item? (index + 1) = none) →
          let texts := Exchange.textsFor name record.exchanges
          (∃ taken ≤ texts.length,
            finish.bindings.get? name = some (.lazy item? (pulled + taken)) ∧
              (∀ index < taken, item? (pulled + index) ≠ none) ∧
              (taken = texts.length ∨ item? (pulled + taken) = none)) ∧
            ∀ index (within : index < texts.length),
              texts[index] = (item? (pulled + index)).getD [] := by
  have begins : Record.Reaches generator.tree session ⟨session, []⟩ session :=
    ⟨rfl, .begin generator.tree session⟩
  have alike := generator.foldlM_record?_alike requests begins
  rw [ran] at alike
  rw [recordAll?]
  cases recorded : requests.foldlM generator.record? ⟨session, []⟩ with
  | none =>
      rw [recorded] at alike
      cases alike
  | some record =>
      rw [recorded] at alike
      cases alike with
      | some reaches =>
          obtain ⟨rfl, accounts⟩ := reaches
          refine ⟨record, rfl, rfl, accounts.passes, ?_, ?_⟩
          · intro name result calls bound
            obtain ⟨later, boundLater, produces⟩ := accounts.consumed name _ bound id
            obtain ⟨rfl, results⟩ := produces.of_function
            exact ⟨boundLater, results⟩
          · intro name item? pulled bound staysExhausted
            obtain ⟨later, boundLater, produces⟩ := accounts.consumed name _ bound id
            obtain ⟨⟨taken, atMost, rfl, exist, all⟩, items⟩ :=
              produces.of_lazy staysExhausted
            exact ⟨⟨taken, atMost, boundLater, exist, all⟩, items⟩

/-- Two listed items and three references to them, among renderings that take the other operand. -/
theorem run_consumes_listed_items :
    let items : Nat → Option (List Char) := fun pulled => [['x'], ['y']][pulled]?
    let generator : Generator Nat := ⟨"$\x7bn\x7d|a".toList,
      .sequence [.alternation [.reference ['n'], .literal ['a']]], {},
      Provider.ofIndex Pick.cycle "cycle"⟩
    let session : Session Nat := ⟨0, ⟨[(['n'], .lazy items 0)]⟩, []⟩
    let requests : List Request := [.list 3, .count, .render, .render, .renderBare]
    (∀ index, items index = none → items (index + 1) = none) ∧
      ∃ finish record, generator.run? requests session = some finish ∧
        generator.recordAll? requests session = some record ∧
        Exchange.textsFor ['n'] record.exchanges = [['x'], ['y'], []] ∧
        finish.bindings.get? ['n'] = some (.lazy items 2) := by
  intro items generator session requests
  have gone (index : Nat) : items index = none ↔ 2 ≤ index := List.getElem?_eq_none_iff
  have staysExhausted : ∀ index, items index = none → items (index + 1) = none := by
    intro index missing
    exact (gone _).mpr (Nat.le_succ_of_le ((gone _).mp missing))
  have ends : (generator.run? requests session).isSome = true := by decide +kernel
  have texts : (generator.recordAll? requests session).map
      (fun record => Exchange.textsFor ['n'] record.exchanges) = some [['x'], ['y'], []] := by
    decide +kernel
  obtain ⟨finish, ran⟩ := Option.isSome_iff_exists.mp ends
  obtain ⟨record, recorded, -, -, -, lazily⟩ :=
    generator.run_consumes_sources requests session finish ran
  rw [recorded] at texts
  have three : Exchange.textsFor ['n'] record.exchanges = [['x'], ['y'], []] :=
    Option.some.inj texts
  obtain ⟨⟨taken, atMost, bound, exist, all⟩, -⟩ := lazily ['n'] items 0 rfl staysExhausted
  rw [three] at atMost all
  obtain rfl : taken = 2 := by
    simp only [gone, ne_eq] at exist all
    have third := exist 2
    simp only [List.length_cons, List.length_nil] at atMost all
    omega
  exact ⟨staysExhausted, finish, record, ran, recorded, three, bound⟩

end Generator

end TextTemplate
