import TextTemplate.Proofs.Render.Consumption
import TextTemplate.Proofs.Render.Questions

/-!
# What a rendering needs of the bindings

A rendering uses the bindings of the names in its tree and no others.  Two sessions that agree
on these names stay in step: they put the same questions to the provider, yield the same text,
and go on agreeing.
-/

namespace TextTemplate

variable {σ α : Type}

/-! ## The names in a tree -/

namespace Node

mutual

/-- The names that the references of a tree ask for, from left to right. -/
def names : Node → List (List Char)
  | .literal _ => []
  | .characterSet _ _ => []
  | .sequence children => namesAmong children
  | .alternation operands => namesAmong operands
  | .permutation operands => namesAmong operands
  | .reference name => [name]

def namesAmong : List Node → List (List Char)
  | [] => []
  | node :: rest => names node ++ namesAmong rest

end

variable {condition : List Char → Prop}

theorem forall_mem_namesAmong_iff {nodes : List Node} :
    (∀ name ∈ namesAmong nodes, condition name) ↔
      ∀ node ∈ nodes, ∀ name ∈ node.names, condition name := by
  induction nodes with
  | nil => simp [namesAmong]
  | cons node rest ih => rw [namesAmong, List.forall_mem_append, ih, List.forall_mem_cons]

/-- What holds of the names in a tree is what holds of the names of its references. -/
theorem forall_mem_names_iff {tree : Node} :
    (∀ name ∈ tree.names, condition name) ↔
      tree.Every fun node => ∀ name, node = .reference name → condition name := by
  induction tree using treeInduction with
  | step tree ih =>
      rw [every_iff, ← forall₂_congr ih]
      cases tree <;> simp [names, subnodes, forall_mem_namesAmong_iff]

end Node

/-- The question asks for one of the names, if it asks for a name at all. -/
def Question.IsAmong (names : List (List Char)) (question : Question) : Prop :=
  ∀ name, question = .resolve name → name ∈ names

/-- A rendering asks for no names but those in its tree. -/
theorem Node.render_isAmong (tree : Node) :
    tree.render.AsksOnly (Question.IsAmong tree.names) := by
  apply Node.render_asksOnly
  apply (Node.forall_mem_names_iff.mp fun name member => member).imp
  rintro node references question asks name rfl
  exact references name asks.eq_reference

/-! ## Questions to the provider -/

/-- Another provider, which keeps every question that it is asked, latest first. -/
def Provider.recorded (provider : Provider σ) : Provider (σ × List Question) where
  name := provider.name
  nextIndex bound state :=
    let (answer, later) := provider.nextIndex bound state.1
    (answer, later, .index bound :: state.2)
  integer low high state :=
    let (answer, later) := provider.integer low high state.1
    (answer, later, .between low high :: state.2)
  rearrange characters state :=
    let (answer, later) := provider.rearrange characters state.1
    (answer, later, .shuffle characters :: state.2)

namespace Session

/-- The session with a record that is still empty. -/
def recording (session : Session σ) : Session (σ × List Question) :=
  ⟨(session.randomness, []), session.bindings, session.events⟩

/-- The session without the record. -/
def withoutRecord (session : Session (σ × List Question)) : Session σ :=
  ⟨session.randomness.1, session.bindings, session.events⟩

/-- The questions that the provider is asked when a recipe is followed, first one first. -/
def draws (provider : Provider σ) (recipe : Recipe α) (session : Session σ) : List Question :=
  (session.recording.follow provider.recorded recipe).2.randomness.2.reverse

theorem resolve_recorded (provider : Provider σ) (name : List Char)
    (session : Session (σ × List Question)) :
    (session.resolve provider.recorded name).1 = (session.withoutRecord.resolve provider name).1 ∧
      (session.resolve provider.recorded name).2.withoutRecord =
        (session.withoutRecord.resolve provider name).2 := by
  simp only [resolve, withoutRecord]
  cases session.bindings.get? name with
  | none => exact ⟨rfl, rfl⟩
  | some source =>
      cases source with
      | text content => exact ⟨rfl, rfl⟩
      | choices options => cases options <;> exact ⟨rfl, rfl⟩
      | function result calls => exact ⟨rfl, rfl⟩
      | lazy item? pulled =>
          cases next : item? pulled with
          | none =>
              simp only [next, true_and]
              rfl
          | some content =>
              simp only [next, true_and]
              rfl

/-- Keeping a record changes nothing else. -/
theorem follow_recorded (provider : Provider σ) (recipe : Recipe α)
    (session : Session (σ × List Question)) :
    (session.follow provider.recorded recipe).map id withoutRecord =
      session.withoutRecord.follow provider recipe := by
  induction recipe generalizing session with
  | done value => rfl
  | index bound next ih => exact ih _ _
  | between low high next ih => exact ih _ _
  | shuffle characters next ih => exact ih _ _
  | resolve name next ih =>
      obtain ⟨sameText, sameSession⟩ := resolve_recorded provider name session
      simp only [follow]
      rw [← sameText, ← sameSession]
      exact ih _ _

/-! ## Sessions that agree -/

/-- Two sessions agree but for the bindings of other names. -/
structure AgreesOn (names : List (List Char)) (first second : Session σ) : Prop where
  randomness : first.randomness = second.randomness
  events : first.events = second.events
  bindings : ∀ name ∈ names, first.bindings.get? name = second.bindings.get? name

namespace AgreesOn

variable {names : List (List Char)} {first second : Session σ}

theorem draw (agree : first.AgreesOn names second) (randomness : σ) :
    AgreesOn names { first with randomness := randomness }
      { second with randomness := randomness } :=
  ⟨rfl, agree.events, agree.bindings⟩

theorem note (agree : first.AgreesOn names second) (event : Event) :
    (first.note event).AgreesOn names (second.note event) :=
  ⟨agree.randomness, congrArg (event :: ·) agree.events, agree.bindings⟩

theorem bindName (agree : first.AgreesOn names second) (name : List Char) (source : Source) :
    (first.bindName name source).AgreesOn names (second.bindName name source) := by
  refine ⟨agree.randomness, agree.events, ?_⟩
  intro other member
  simp only [Session.bindName]
  by_cases same : other = name
  · rw [same, Bindings.get?_insert_self, Bindings.get?_insert_self]
  · rw [Bindings.get?_insert_of_ne _ _ same, Bindings.get?_insert_of_ne _ _ same]
    exact agree.bindings other member

/-- Sessions that agree resolve a name to the same text, and go on agreeing. -/
theorem resolve (provider : Provider σ) (agree : first.AgreesOn names second)
    {name : List Char} (member : name ∈ names) :
    (first.resolve provider name).1 = (second.resolve provider name).1 ∧
      (first.resolve provider name).2.AgreesOn names (second.resolve provider name).2 := by
  unfold Session.resolve
  rw [agree.bindings name member, agree.randomness]
  cases second.bindings.get? name with
  | none => exact ⟨rfl, agree⟩
  | some source =>
      cases source with
      | text content => exact ⟨rfl, agree⟩
      | choices options => exact ⟨rfl, agree.draw _⟩
      | function result calls => exact ⟨rfl, agree.bindName _ _⟩
      | lazy item? pulled =>
          cases next : item? pulled with
          | none =>
              simp only [next, true_and]
              exact agree.note _
          | some content =>
              simp only [next, true_and]
              exact agree.bindName _ _

/-- Sessions that agree on all names that a recipe may ask for are led to the same value. -/
theorem follow (provider : Provider σ) (agree : first.AgreesOn names second)
    {recipe : Recipe α} (asks : recipe.AsksOnly (Question.IsAmong names)) :
    (first.follow provider recipe).1 = (second.follow provider recipe).1 ∧
      (first.follow provider recipe).2.AgreesOn names (second.follow provider recipe).2 := by
  induction recipe generalizing first second with
  | done value => exact ⟨rfl, agree⟩
  | index bound next ih =>
      simp only [Session.follow]
      rw [agree.randomness]
      exact ih _ (agree.draw _) (asks.2 _)
  | between low high next ih =>
      simp only [Session.follow]
      rw [agree.randomness]
      exact ih _ (agree.draw _) (asks.2 _)
  | shuffle characters next ih =>
      simp only [Session.follow]
      rw [agree.randomness]
      exact ih _ (agree.draw _) (asks.2 _)
  | resolve name next ih =>
      obtain ⟨sameText, agreeLater⟩ := agree.resolve provider (asks.1 name rfl)
      simp only [Session.follow]
      rw [sameText]
      exact ih _ agreeLater (asks.2 _)

end AgreesOn

/-! ## Names that are not asked for -/

/-- A recipe leaves the names alone that it does not ask for. -/
theorem follow_get?_of_not_mem {provider : Provider σ} {names : List (List Char)}
    {recipe : Recipe α} (asks : recipe.AsksOnly (Question.IsAmong names)) {name : List Char}
    (other : name ∉ names) (session : Session σ) :
    (session.follow provider recipe).2.bindings.get? name = session.bindings.get? name := by
  induction recipe generalizing session with
  | done value => rfl
  | index bound next ih => exact ih _ (asks.2 _) _
  | between low high next ih => exact ih _ (asks.2 _) _
  | shuffle characters next ih => exact ih _ (asks.2 _) _
  | resolve asked next ih =>
      have differ : name ≠ asked := by
        rintro rfl
        exact other (asks.1 name rfl)
      rw [← session.resolve_get?_of_ne provider differ]
      exact ih _ (asks.2 _) _

/-- A recipe that asks for no name leaves all bindings as they are. -/
theorem follow_bindings (provider : Provider σ) {recipe : Recipe α}
    (draws : recipe.AsksOnly Question.IsDraw) (session : Session σ) :
    (session.follow provider recipe).2.bindings = session.bindings := by
  induction recipe generalizing session with
  | done value => rfl
  | index bound next ih => exact ih _ (draws.2 _) _
  | between low high next ih => exact ih _ (draws.2 _) _
  | shuffle characters next ih => exact ih _ (draws.2 _) _
  | resolve name next ih => exact absurd rfl (draws.1 name)

/-- For a recipe that asks for no name it makes no difference what is bound. -/
theorem followBare_of_isDraw {provider : Provider σ} {recipe : Recipe α}
    (draws : recipe.AsksOnly Question.IsDraw) (session : Session σ) :
    session.followBare provider recipe = session.follow provider recipe := by
  have bare : AgreesOn [] { session with bindings := .empty } session := ⟨rfl, rfl, nofun⟩
  have asks : recipe.AsksOnly (Question.IsAmong []) :=
    draws.imp fun question draw name same => absurd same (draw name)
  obtain ⟨sameText, agree⟩ := bare.follow provider asks
  have kept := follow_bindings provider draws session
  simp only [followBare]
  rw [sameText, agree.randomness, agree.events, ← kept]

end Session

/-! ## Renderings -/

namespace Node

/--
Two sessions that agree on the names in a tree are led through the same rendering: the provider
is asked the same questions and left in the same state, the text is the same, and the sessions
still agree.  The questions are those of the renderings themselves, which keeping a record does
not change.  The bindings of all other names stay as they are, and a tree without references is
rendered as if nothing were bound.
-/
theorem render_of_agreesOn (provider : Provider σ) (tree : Node) {first second : Session σ}
    (agree : first.AgreesOn tree.names second) :
    (first.follow provider tree.render).1 = (second.follow provider tree.render).1 ∧
      first.draws provider tree.render = second.draws provider tree.render ∧
      (∀ session : Session σ,
        (session.recording.follow provider.recorded tree.render).map id Session.withoutRecord =
          session.follow provider tree.render) ∧
      (first.follow provider tree.render).2.AgreesOn tree.names
        (second.follow provider tree.render).2 ∧
      (∀ name, name ∉ tree.names →
        (first.follow provider tree.render).2.bindings.get? name = first.bindings.get? name ∧
        (second.follow provider tree.render).2.bindings.get? name =
          second.bindings.get? name) ∧
      (tree.hasReference = false →
        first.followBare provider tree.render = first.follow provider tree.render) := by
  have asks := tree.render_isAmong
  obtain ⟨sameText, agreeLater⟩ := agree.follow provider asks
  have recording : first.recording.AgreesOn tree.names second.recording :=
    ⟨congrArg (·, []) agree.randomness, agree.events, agree.bindings⟩
  have sameRecord := (recording.follow provider.recorded asks).2.randomness
  refine ⟨sameText, ?_, ?_, agreeLater, ?_, ?_⟩
  · rw [Session.draws, Session.draws, sameRecord]
  · exact fun session => Session.follow_recorded provider tree.render session.recording
  · intro name other
    exact ⟨Session.follow_get?_of_not_mem asks other first,
      Session.follow_get?_of_not_mem asks other second⟩
  · intro closed
    exact Session.followBare_of_isDraw (render_isDraw closed) first

/-- Both renderings ask for ten indices below the same bounds and leave the fourth name alone. -/
theorem render_of_other_bindings :
    let tree : Node := .sequence
      [.alternation [.literal ['-'], .reference ['u']],
        .permutation [.reference ['f'], .reference ['l'],
          .characterSet ['a', 'b'] (.between 1 2)],
        .reference ['f']]
    let provider : Provider (Nat × List Nat) :=
      Provider.ofIndex (Pick.recorded (Pick.listed #[1, 0, 1])) "listed"
    let calls : Source := .function (fun calls => 'f' :: List.replicate calls 'g') 2
    let first : Session (Nat × List Nat) := ⟨(0, []), ⟨[(['u'], .choices [['p'], ['q']]),
      (['f'], calls), (['l'], .items [['r']]), (['w'], calls)]⟩, []⟩
    let second : Session (Nat × List Nat) := ⟨(0, []), ⟨[(['l'], .items [['r']]),
      (['w'], .text ['w']), (['f'], calls), (['u'], .choices [['p'], ['q']])]⟩, []⟩
    let bounds := [2, 3, 4, 5, 6, 2, 2, 2, 2, 2]
    ((first.follow provider tree.render).1 = "prgbfagfggg".toList ∧
        (first.follow provider tree.render).2.randomness = (10, bounds) ∧
        (first.follow provider tree.render).2.bindings.get? ['w'] = some calls) ∧
      (second.follow provider tree.render).1 = "prgbfagfggg".toList ∧
        (second.follow provider tree.render).2.randomness = (10, bounds) ∧
        (second.follow provider tree.render).2.bindings.get? ['w'] = some (.text ['w']) := by
  intro tree provider calls first second bounds
  have agree : first.AgreesOn tree.names second := by
    refine ⟨rfl, rfl, ?_⟩
    intro name member
    have among : name = ['u'] ∨ name = ['f'] ∨ name = ['l'] ∨ name = ['f'] := by
      simpa [tree, names, namesAmong] using member
    rcases among with rfl | rfl | rfl | rfl <;> rfl
  obtain ⟨sameText, -, -, agreeLater, untouched, -⟩ := render_of_agreesOn provider tree agree
  have text : (first.follow provider tree.render).1 = "prgbfagfggg".toList := by decide
  have asked : (first.follow provider tree.render).2.randomness = (10, bounds) := by decide
  obtain ⟨firstKept, secondKept⟩ := untouched ['w'] (by decide)
  refine ⟨⟨text, asked, firstKept.trans rfl⟩, ?_, ?_, secondKept.trans rfl⟩
  · rw [← sameText, text]
  · rw [← agreeLater.randomness, asked]

end Node

end TextTemplate
