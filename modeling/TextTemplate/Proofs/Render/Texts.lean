import TextTemplate.Proofs.Render.Driving
import TextTemplate.Proofs.Render.Questions

/-!
# The texts of renderings

The texts that the recipe of a tree yields are those of its language: one lemma for each kind
of recipe, put together along the tree.
-/

namespace TextTemplate

open Recipe

variable {resolves : List Char → List Nat → List Char → Prop} {bindings : Bindings}

/-! ## Sets -/

/-- Any members may be drawn, as many as were asked for. -/
theorem drawMembers_yields {members : Array Char} {count : Nat} {drawn text : List Char} :
    (drawMembers members count drawn).Yields resolves text ↔
      ∃ more, (more.length = count ∧ ∀ character ∈ more, character ∈ members) ∧
        text = drawn.reverse ++ more := by
  induction count generalizing drawn with
  | zero =>
      rw [drawMembers, yields_done]
      constructor
      · rintro rfl
        exact ⟨[], ⟨rfl, by simp⟩, (List.append_nil _).symm⟩
      · rintro ⟨more, ⟨length, -⟩, rfl⟩
        rw [List.eq_nil_of_length_eq_zero length, List.append_nil]
  | succ count ih =>
      rw [drawMembers, yields_index]
      constructor
      · rintro ⟨chosen, inBounds, rest⟩
        rw [Array.getElem?_eq_getElem inBounds, ih] at rest
        rcases rest with ⟨more, ⟨length, fromMembers⟩, rfl⟩
        refine ⟨members[chosen] :: more, ⟨congrArg (· + 1) length, ?_⟩, by simp⟩
        exact List.forall_mem_cons.mpr ⟨Array.getElem_mem inBounds, fromMembers⟩
      · rintro ⟨more, ⟨length, fromMembers⟩, rfl⟩
        obtain ⟨first, rest, rfl⟩ := List.exists_cons_of_length_eq_add_one length
        obtain ⟨inMembers, restInMembers⟩ := List.forall_mem_cons.mp fromMembers
        obtain ⟨chosen, inBounds, rfl⟩ := Array.getElem_of_mem inMembers
        refine ⟨chosen, inBounds, ?_⟩
        rw [Array.getElem?_eq_getElem inBounds, ih]
        exact ⟨rest, ⟨Nat.succ.inj length, restInMembers⟩, by simp⟩

theorem Repetition.recipe_yields {repetition : Repetition} (ordered : repetition.IsOrdered)
    {count : Nat} : repetition.recipe.Yields resolves count ↔
      repetition.low ≤ count ∧ count ≤ repetition.high := by
  cases repetition with
  | exactly exact =>
      rw [Repetition.recipe, yields_done]
      simp only [Repetition.low, Repetition.high]
      omega
  | between low high =>
      rw [Repetition.recipe, yields_between ordered.1 ordered.2]
      simp only [yields_done, exists_eq_right', Repetition.low, Repetition.high]

theorem Node.renderSet_yields {members : List Char} {repetition : Repetition}
    (ordered : repetition.IsOrdered) {text : List Char} :
    (Node.renderSet members.toArray repetition).Yields resolves text ↔
      setLanguage members repetition text := by
  unfold Node.renderSet setLanguage
  by_cases noMember : members = []
  · simp [noMember]
  · have notEmpty : members.toArray.isEmpty = false := by simpa using noMember
    rw [notEmpty, if_neg Bool.false_ne_true, if_neg noMember, yields_bind]
    simp only [Repetition.recipe_yields ordered, drawMembers_yields, List.mem_toArray,
      List.reverse_nil, List.nil_append]
    constructor
    · rintro ⟨count, between, more, ⟨rfl, fromMembers⟩, rfl⟩
      exact ⟨fromMembers, between⟩
    · rintro ⟨fromMembers, between⟩
      exact ⟨text.length, between, text, ⟨rfl, fromMembers⟩, rfl⟩

/-! ## Sequences and alternations -/

namespace Node

/-- A rendering yields exactly the texts of the tree's language. -/
def RendersLanguage (bindings : Bindings) (tree : Node) : Prop :=
  ∀ text, tree.render.Yields bindings.Chooses text ↔ tree.Language bindings text

theorem concatBehind_yields {nodes : List Node}
    (each : ∀ node ∈ nodes, node.RendersLanguage bindings) {earlier text : List Char} :
    (concatBehind earlier (renderEach nodes)).Yields bindings.Chooses text ↔
      ∃ own, LanguageAll bindings nodes own ∧ text = earlier.reverse ++ own := by
  induction nodes generalizing earlier with
  | nil => simp [renderEach, concatBehind, LanguageAll]
  | cons node rest ih =>
      obtain ⟨first, later⟩ := List.forall_mem_cons.mp each
      rw [renderEach, concatBehind, yields_bind]
      simp only [first _, ih later, LanguageAll]
      constructor
      · rintro ⟨middle, inFirst, own, inRest, rfl⟩
        exact ⟨middle ++ own, ⟨middle, own, inFirst, inRest, rfl⟩, by simp⟩
      · rintro ⟨whole, ⟨middle, own, inFirst, inRest, rfl⟩, rfl⟩
        exact ⟨middle, inFirst, own, inRest, by simp⟩

theorem concat_yields {nodes : List Node}
    (each : ∀ node ∈ nodes, node.RendersLanguage bindings) {text : List Char} :
    (concat (renderEach nodes)).Yields bindings.Chooses text ↔
      LanguageAll bindings nodes text := by
  rw [concat, concatBehind_yields each]
  simp

theorem languageAny_iff {nodes : List Node} {text : List Char} :
    LanguageAny bindings nodes text ↔ ∃ node ∈ nodes, node.Language bindings text := by
  induction nodes with
  | nil => simp [LanguageAny]
  | cons node rest ih => simp [LanguageAny, ih]

theorem oneOf_yields {nodes : List Node}
    (each : ∀ node ∈ nodes, node.RendersLanguage bindings) {text : List Char} :
    (oneOf (renderEach nodes).toArray).Yields bindings.Chooses text ↔
      LanguageAny bindings nodes text ∨ (nodes = [] ∧ text = []) := by
  rw [renderEach_eq_map, languageAny_iff, oneOf]
  by_cases noNode : nodes = []
  · simp [noNode]
  · have notEmpty : (nodes.map render).toArray.isEmpty = false := by simpa using noNode
    rw [notEmpty, if_neg Bool.false_ne_true, yields_index, List.size_toArray, List.length_map]
    constructor
    · rintro ⟨chosen, inBounds, rest⟩
      rw [List.getElem?_toArray, List.getElem?_map, List.getElem?_eq_getElem inBounds] at rest
      exact .inl ⟨nodes[chosen], List.getElem_mem inBounds,
        (each _ (List.getElem_mem inBounds) _).mp rest⟩
    · rintro (⟨node, member, inLanguage⟩ | ⟨none, -⟩)
      · obtain ⟨chosen, inBounds, rfl⟩ := List.getElem_of_mem member
        refine ⟨chosen, inBounds, ?_⟩
        rw [List.getElem?_toArray, List.getElem?_map, List.getElem?_eq_getElem inBounds]
        exact (each _ member _).mpr inLanguage
      · exact absurd none noNode

/-! ## Trees -/

/-- The texts of an ordered tree's renderings make up its language. -/
theorem render_yields_iff {tree : Node} (ordered : tree.IsOrdered) :
    tree.RendersLanguage bindings := by
  induction tree using treeInduction with
  | step tree ih =>
      intro text
      obtain ⟨root, below⟩ := every_iff.mp ordered
      have each : ∀ node ∈ tree.subnodes, node.RendersLanguage bindings :=
        fun node member => ih node member (below node member)
      cases tree with
      | literal content => simp [render, Language]
      | characterSet members repetition => exact renderSet_yields root
      | sequence children => exact concat_yields each
      | alternation operands => exact oneOf_yields each
      | permutation operands =>
          rw [render, yields_bind]
          simp only [yields_shuffle, yields_done, Language]
          constructor
          · rintro ⟨arranged, inAll, shuffled, rearranges, rfl⟩
            exact ⟨arranged, (concat_yields each).mp inAll, rearranges⟩
          · rintro ⟨arranged, inAll, rearranges⟩
            exact ⟨arranged, (concat_yields each).mpr inAll, text, rearranges, rfl⟩
      | reference name =>
          rw [render, yields_resolve]
          simp only [yields_done, exists_eq_right', Bindings.exists_chooses_iff, Language]

/--
Rendering realises the language of an ordered tree.  With texts and choices bound, a picker
that stays below its bounds renders one of the texts, and each text is rendered by some
answers from a list.
-/
theorem render_realises_language {tree : Node} {bindings : Bindings}
    (ordered : tree.IsOrdered) (plain : bindings.IsPlain) :
    (∀ {σ : Type} (pick : Nat → σ → Nat × σ) (label : String) (session : Session σ),
      Pick.StaysBelow pick → session.bindings = bindings →
        tree.Language bindings (session.follow (Provider.ofIndex pick label) tree.render).1) ∧
    ∀ text, tree.Language bindings text →
      ∃ answers, tree.render.IsDrivenBy bindings answers text := by
  constructor
  · rintro σ pick label session below rfl
    apply (render_yields_iff ordered _).mp
    exact Session.yields_follow below ordered.render_isAnswerable (plain.asksOnly _)
  · intro text inLanguage
    obtain ⟨answers, trace⟩ := (render_yields_iff ordered text).mpr inLanguage
    exact ⟨answers, (isDrivenBy_iff (plain.asksOnly _)).mpr trace⟩

/-- A shuffled choice from a bound list: the lowest indices give a text, and `dac` is reached. -/
theorem render_realises_language_of_choices :
    let tree : Node := .permutation [.literal ['a'],
      .alternation [.characterSet ['x', 'y'] (.between 0 2), .reference ['n']]]
    let bindings : Bindings := ⟨[(['n'], .choices [['b'], ['c', 'd']])]⟩
    (tree.IsOrdered ∧ bindings.IsPlain ∧ Pick.StaysBelow Pick.lowest) ∧
      tree.Language bindings (Session.follow (Provider.ofIndex Pick.lowest "lowest")
        tree.render ⟨(), bindings, []⟩).1 ∧
      ∃ answers, tree.render.IsDrivenBy bindings answers ['d', 'a', 'c'] := by
  intro tree bindings
  have ordered : tree.IsOrdered := by
    simp [tree, IsOrdered, Every, EveryAmong, RepeatsInOrder, Repetition.IsOrdered, wordSize]
  have plain : bindings.IsPlain := by
    simp [bindings, Bindings.IsPlain, Source.IsPlain]
  have inLanguage : tree.Language bindings ['d', 'a', 'c'] := by
    have chosen : bindings.Language ['n'] ['c', 'd'] := .inl (by simp)
    refine ⟨['a', 'c', 'd'], ⟨['a'], ['c', 'd'], rfl, ?_, rfl⟩, by decide⟩
    exact ⟨['c', 'd'], [], .inl (.inr (.inl chosen)), rfl, rfl⟩
  obtain ⟨sound, complete⟩ := render_realises_language ordered plain
  exact ⟨⟨ordered, plain, Pick.lowest_staysBelow⟩,
    sound _ _ ⟨(), bindings, []⟩ Pick.lowest_staysBelow rfl, complete _ inLanguage⟩

end Node

end TextTemplate
