import TextTemplate.Proofs.Render.Questions
import TextTemplate.Render.Exchange

/-!
# What a rendering asks and gets

The exchanges of a rendering are those that its tree calls for, and its text is made of their
answers.
-/

namespace TextTemplate

open Recipe

/-! ## Exchanges of recipes -/

/-- The question of an exchange. -/
def Exchange.question : Exchange → Question
  | .index bound _ => .index bound
  | .between low high _ => .between low high
  | .shuffle characters _ => .shuffle characters
  | .resolve name _ => .resolve name

theorem Question.IsDraw.exchange {exchange : Exchange} (draws : exchange.question.IsDraw) :
    exchange.IsDraw := by
  rintro name answer rfl
  exact draws name rfl

variable {σ α β : Type} {provider : Provider σ}

namespace Session

/-- Every exchange comes from a question of the recipe. -/
theorem exchanges_of_asksOnly {allowed : Question → Prop} {recipe : Recipe α}
    (asks : recipe.AsksOnly allowed) (session : Session σ) :
    ∀ exchange ∈ session.exchanges provider recipe, allowed exchange.question := by
  induction recipe generalizing session with
  | done value => simp [exchanges]
  | index bound next ih => exact List.forall_mem_cons.mpr ⟨asks.1, ih _ (asks.2 _) _⟩
  | between low high next ih => exact List.forall_mem_cons.mpr ⟨asks.1, ih _ (asks.2 _) _⟩
  | shuffle characters next ih => exact List.forall_mem_cons.mpr ⟨asks.1, ih _ (asks.2 _) _⟩
  | resolve name next ih => exact List.forall_mem_cons.mpr ⟨asks.1, ih _ (asks.2 _) _⟩

/-- The exchanges of a recipe and the next stand one behind the other. -/
theorem exchanges_bind (recipe : Recipe α) (following : α → Recipe β) (session : Session σ) :
    session.exchanges provider (recipe.bind following) =
      session.exchanges provider recipe ++
        (session.follow provider recipe).2.exchanges provider
          (following (session.follow provider recipe).1) := by
  induction recipe generalizing session with
  | done value => rfl
  | index bound next ih => exact congrArg _ (ih _ _)
  | between low high next ih => exact congrArg _ (ih _ _)
  | shuffle characters next ih => exact congrArg _ (ih _ _)
  | resolve name next ih => exact congrArg _ (ih _ _)

end Session

/-! ## Exchanges of trees -/

namespace Node

/-- The exchanges of every rendering of a tree are those that the tree calls for. -/
def RendersByExchanges (provider : Provider σ) (tree : Node) : Prop :=
  ∀ session : Session σ, tree.RendersBy (session.exchanges provider tree.render)
    (session.follow provider tree.render).1

theorem exists_allRenderBy {nodes : List Node}
    (each : ∀ node ∈ nodes, node.RendersByExchanges provider) (earlier : List Char)
    (session : Session σ) :
    ∃ own, (session.follow provider (concatBehind earlier (renderEach nodes))).1 =
        earlier.reverse ++ own ∧
      AllRenderBy nodes
        (session.exchanges provider (concatBehind earlier (renderEach nodes))) own := by
  induction nodes generalizing earlier session with
  | nil => exact ⟨[], (List.append_nil _).symm, rfl, rfl⟩
  | cons node rest ih =>
      obtain ⟨first, later⟩ := List.forall_mem_cons.mp each
      rw [renderEach, concatBehind, Session.follow_bind, Session.exchanges_bind]
      obtain ⟨behind, text, rendered⟩ := ih later
        ((session.follow provider node.render).1.reverseAux earlier)
        (session.follow provider node.render).2
      refine ⟨(session.follow provider node.render).1 ++ behind, ?_, ?_⟩
      · simpa using text
      · exact ⟨_, _, _, behind, first session, rendered, rfl, rfl⟩

theorem allRenderBy_concat {nodes : List Node}
    (each : ∀ node ∈ nodes, node.RendersByExchanges provider) (session : Session σ) :
    AllRenderBy nodes (session.exchanges provider (concat (renderEach nodes)))
      (session.follow provider (concat (renderEach nodes))).1 := by
  obtain ⟨own, text, rendered⟩ := exists_allRenderBy each [] session
  rw [concat, text]
  exact rendered

theorem render_alternation {operands : List Node} (someOperand : operands ≠ []) :
    (Node.alternation operands).render =
      .index operands.length fun chosen => (renderEach operands)[chosen]?.getD (.done []) := by
  have notEmpty : (renderEach operands).toArray.isEmpty = false := by
    simpa [renderEach_eq_map] using someOperand
  have length : (renderEach operands).toArray.size = operands.length := by
    rw [renderEach_eq_map, List.size_toArray, List.length_map]
  rw [render, oneOf, notEmpty, if_neg Bool.false_ne_true, length]
  simp only [List.getElem?_toArray]

theorem chosenRendersBy {nodes : List Node}
    (each : ∀ node ∈ nodes, node.RendersByExchanges provider) (chosen : Nat)
    (session : Session σ) :
    ChosenRendersBy nodes chosen
      (session.exchanges provider ((renderEach nodes)[chosen]?.getD (.done [])))
      (session.follow provider ((renderEach nodes)[chosen]?.getD (.done []))).1 := by
  induction nodes generalizing chosen with
  | nil => exact ⟨rfl, rfl⟩
  | cons node rest ih =>
      obtain ⟨first, later⟩ := List.forall_mem_cons.mp each
      cases chosen with
      | zero => exact first session
      | succ chosen => exact ih later chosen

/-- A rendering asks what its tree calls for, and its text is made of the answers. -/
theorem render_rendersBy (tree : Node) : tree.RendersByExchanges provider := by
  induction tree using treeInduction with
  | step tree each =>
      intro session
      cases tree with
      | literal text => exact ⟨rfl, rfl⟩
      | characterSet members repetition =>
          have draws : (renderSet members.toArray repetition).AsksOnly Question.IsDraw := by
            apply renderSet_asksOnly
            intro question asks name same
            subst same
            cases asks.eq_reference
          intro exchange member
          exact (Session.exchanges_of_asksOnly draws session exchange member).exchange
      | sequence children => exact allRenderBy_concat each session
      | alternation operands =>
          by_cases noOperand : operands = []
          · subst noOperand
            exact .inl ⟨rfl, rfl, rfl⟩
          · rw [render_alternation noOperand]
            exact .inr ⟨_, _, rfl, chosenRendersBy each _ _⟩
      | permutation operands =>
          refine ⟨_, _, allRenderBy_concat each session, ?_⟩
          rw [render, Session.exchanges_bind, Session.follow_bind]
          rfl
      | reference name => rfl

end Node

end TextTemplate
