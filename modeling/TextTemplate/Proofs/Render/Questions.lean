import TextTemplate.Proofs.Random.Questions
import TextTemplate.Proofs.Tree.Every
import TextTemplate.Render.Node

/-!
# What the recipe of a tree asks

Every question of a rendering comes from one node of the tree.
-/

namespace TextTemplate

open Recipe

variable {allowed : Question → Prop}

/-! ## The parts of a recipe -/

theorem drawMembers_asksOnly {members : Array Char}
    (asks : allowed (.index members.size)) (count : Nat) (drawn : List Char) :
    (drawMembers members count drawn).AsksOnly allowed := by
  induction count generalizing drawn with
  | zero => trivial
  | succ count ih => exact ⟨asks, fun answer => ih _⟩

theorem Recipe.concatBehind_asksOnly {recipes : List (Recipe (List Char))}
    (asks : ∀ recipe ∈ recipes, recipe.AsksOnly allowed) (earlier : List Char) :
    (concatBehind earlier recipes).AsksOnly allowed := by
  induction recipes generalizing earlier with
  | nil => trivial
  | cons first rest ih =>
      rw [List.forall_mem_cons] at asks
      apply asks.1.bind
      intro text
      exact ih asks.2 _

theorem Recipe.oneOf_asksOnly {recipes : Array (Recipe (List Char))}
    (choice : recipes ≠ #[] → allowed (.index recipes.size))
    (asks : ∀ recipe ∈ recipes, recipe.AsksOnly allowed) :
    (oneOf recipes).AsksOnly allowed := by
  unfold oneOf
  split
  · trivial
  · next some =>
      refine ⟨choice (by simpa using some), ?_⟩
      intro chosen
      change (recipes[chosen]?.getD (.done [])).AsksOnly allowed
      cases found : recipes[chosen]? with
      | none => trivial
      | some recipe => exact asks recipe (Array.mem_of_getElem? found)

namespace Node

/-- The questions that a node asks on its own; those of the nodes below it come on top. -/
def Asks : Node → Question → Prop
  | .literal _, _ => False
  | .characterSet members repetition, question =>
      members ≠ [] ∧ (question = .index members.length ∨
        ∃ low high, repetition = .between low high ∧ question = .between low high)
  | .sequence _, _ => False
  | .alternation operands, question => operands ≠ [] ∧ question = .index operands.length
  | .permutation _, question => ∃ characters, question = .shuffle characters
  | .reference name, question => question = .resolve name

theorem renderEach_eq_map (nodes : List Node) : renderEach nodes = nodes.map render := by
  induction nodes with
  | nil => rfl
  | cons node rest ih => rw [renderEach, ih, List.map_cons]

theorem renderSet_asksOnly {members : List Char} {repetition : Repetition}
    (own : ∀ question, (Node.characterSet members repetition).Asks question →
      allowed question) : (renderSet members.toArray repetition).AsksOnly allowed := by
  unfold renderSet
  split
  · trivial
  · next some =>
      have notEmpty : members ≠ [] := by simpa using some
      apply AsksOnly.bind
      · cases repetition with
        | exactly count => trivial
        | between low high =>
            exact ⟨own _ ⟨notEmpty, .inr ⟨low, high, rfl, rfl⟩⟩, fun answer => trivial⟩
      · intro count
        exact drawMembers_asksOnly (own _ ⟨notEmpty, .inl rfl⟩) count []

/-- A rendering asks nothing but what the nodes of the tree ask. -/
theorem render_asksOnly {tree : Node}
    (own : tree.Every fun node => ∀ question, node.Asks question → allowed question) :
    tree.render.AsksOnly allowed := by
  induction tree using treeInduction with
  | step tree ih =>
      obtain ⟨root, below⟩ := every_iff.mp own
      have each : ∀ recipe ∈ renderEach tree.subnodes, recipe.AsksOnly allowed := by
        rw [renderEach_eq_map]
        intro recipe member
        obtain ⟨child, inTree, rfl⟩ := List.mem_map.mp member
        exact ih child inTree (below child inTree)
      cases tree with
      | literal text => trivial
      | characterSet members repetition => exact renderSet_asksOnly root
      | sequence children => exact concatBehind_asksOnly each []
      | alternation operands =>
          apply oneOf_asksOnly
          · intro notEmpty
            have size : (renderEach operands).toArray.size = operands.length := by
              rw [renderEach_eq_map, List.size_toArray, List.length_map]
            rw [size]
            refine root _ ⟨?_, rfl⟩
            rintro rfl
            exact notEmpty rfl
          · intro recipe member
            exact each recipe (List.mem_toArray.mp member)
      | permutation operands =>
          apply (concatBehind_asksOnly each []).bind
          intro text
          exact ⟨root _ ⟨text, rfl⟩, fun answer => trivial⟩
      | reference name => exact ⟨root _ rfl, fun answer => trivial⟩

/-! ## Which node asks a question -/

/-- A node whose repetition is ordered asks nothing that has no answer. -/
theorem Asks.isAnswerable {node : Node} {question : Question} (asks : node.Asks question)
    (inOrder : node.RepeatsInOrder) : question.IsAnswerable := by
  cases node with
  | literal text => cases asks
  | characterSet members repetition =>
      rcases asks with ⟨notEmpty, rfl | ⟨low, high, rfl, rfl⟩⟩
      · exact List.length_pos_iff.mpr notEmpty
      · exact inOrder
  | sequence children => cases asks
  | alternation operands =>
      rcases asks with ⟨notEmpty, rfl⟩
      exact List.length_pos_iff.mpr notEmpty
  | permutation operands =>
      rcases asks with ⟨characters, rfl⟩
      trivial
  | reference name =>
      obtain rfl := asks
      trivial

/-- Only permutations ask for rearrangements. -/
theorem Asks.exists_permutation {node : Node} {characters : List Char}
    (asks : node.Asks (.shuffle characters)) : ∃ operands, node = .permutation operands := by
  cases node with
  | permutation operands => exact ⟨operands, rfl⟩
  | characterSet members repetition =>
      rcases asks with ⟨-, impossible | ⟨low, high, -, impossible⟩⟩
      · cases impossible
      · cases impossible
  | alternation operands => cases asks.2
  | literal text => cases asks
  | sequence children => cases asks
  | reference name => cases asks

/-- Only a reference asks for the text of its name. -/
theorem Asks.eq_reference {node : Node} {name : List Char} (asks : node.Asks (.resolve name)) :
    node = .reference name := by
  cases node with
  | reference own =>
      cases asks
      rfl
  | characterSet members repetition =>
      rcases asks with ⟨-, impossible | ⟨low, high, -, impossible⟩⟩
      · cases impossible
      · cases impossible
  | permutation operands =>
      rcases asks with ⟨characters, impossible⟩
      cases impossible
  | alternation operands => cases asks.2
  | literal text => cases asks
  | sequence children => cases asks

/-- A tree without references asks for no name. -/
theorem render_isDraw {tree : Node} (closed : tree.hasReference = false) :
    tree.render.AsksOnly Question.IsDraw := by
  apply render_asksOnly
  apply (hasReference_eq_false_iff.mp closed).imp
  rintro node noReference question asks name rfl
  exact noReference name asks.eq_reference

/-- Every question of an ordered tree has an answer. -/
theorem IsOrdered.render_isAnswerable {tree : Node} (ordered : tree.IsOrdered) :
    tree.render.AsksOnly Question.IsAnswerable := by
  apply render_asksOnly
  apply ordered.imp
  intro node inOrder question asks
  exact asks.isAnswerable inOrder

end Node

end TextTemplate
