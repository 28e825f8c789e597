import Mathlib.Algebra.Order.BigOperators.GroupWithZero.List
import Mathlib.Data.Set.Card
import TextTemplate.Count.Node
import TextTemplate.Proofs.Count.Strings
import TextTemplate.Proofs.Random.Tally
import TextTemplate.Proofs.Render.Driving
import TextTemplate.Proofs.Render.Questions
import TextTemplate.Proofs.Tree.Parsed

/-!
# Counts and traces

Counting a tree without permutations and references is counting the traces of its recipe:
where a rendering draws, the count multiplies or adds.
-/

namespace TextTemplate

open Recipe

/-! ## Traces of the parts of a rendering -/

theorem traceCount_drawMembers (members : Array Char) (count : Nat) (drawn : List Char) :
    (drawMembers members count drawn).traceCount = members.size ^ count := by
  induction count generalizing drawn with
  | zero => rfl
  | succ count ih =>
      rw [drawMembers, traceCount_index, Finset.sum_congr rfl fun chosen _ => ih _,
        Finset.sum_const, Finset.card_range, Nat.nsmul_eq_mul, Nat.pow_succ']

theorem Repetition.tally_recipe (weight : Nat → Nat) (repetition : Repetition) :
    repetition.recipe.tally weight =
      ∑ length ∈ Finset.Icc repetition.low repetition.high, weight length := by
  cases repetition with
  | exactly count =>
      simp only [Repetition.low, Repetition.high, Finset.Icc_self, Finset.sum_singleton]
      rfl
  | between low high => rfl

theorem Node.traceCount_renderSet {members : List Char} (someMember : members ≠ [])
    (repetition : Repetition) :
    (Node.renderSet members.toArray repetition).traceCount =
      ∑ length ∈ Finset.Icc repetition.low repetition.high, members.length ^ length := by
  have notEmpty : members.toArray.isEmpty = false := by simpa using someMember
  rw [Node.renderSet, notEmpty, if_neg Bool.false_ne_true, Recipe.traceCount, tally_bind,
    Repetition.tally_recipe]
  exact Finset.sum_congr rfl fun length _ => traceCount_drawMembers members.toArray length []

theorem traceCount_concatBehind (earlier : List Char) (recipes : List (Recipe (List Char))) :
    (concatBehind earlier recipes).traceCount = (recipes.map Recipe.traceCount).prod := by
  induction recipes generalizing earlier with
  | nil => rfl
  | cons first rest ih =>
      rw [concatBehind, traceCount_bind fun text => ih _, List.map_cons, List.prod_cons]

theorem traceCount_oneOf {recipes : List (Recipe (List Char))} (someRecipe : recipes ≠ []) :
    (oneOf recipes.toArray).traceCount = (recipes.map Recipe.traceCount).sum := by
  have choices : ∀ recipes : List (Recipe (List Char)),
      ∑ chosen ∈ Finset.range recipes.length, (recipes[chosen]?.getD (.done [])).traceCount =
        (recipes.map Recipe.traceCount).sum := by
    intro recipes
    induction recipes with
    | nil => rfl
    | cons first rest ih =>
        rw [List.length_cons, Finset.sum_range_succ', Nat.add_comm, List.map_cons,
          List.sum_cons, ← ih]
        rfl
  have notEmpty : recipes.toArray.isEmpty = false := by simpa using someRecipe
  rw [oneOf, notEmpty, if_neg Bool.false_ne_true, traceCount_index, ← choices recipes]
  simp only [List.size_toArray, List.getElem?_toArray]

/-! ## Counts of trees -/

namespace Node

/-- A proper node that draws numbers only. -/
def IsCountable (node : Node) : Prop :=
  node.IsProper ∧ (∀ operands, node ≠ .permutation operands) ∧ ∀ name, node ≠ .reference name

theorem render_isNumeric {tree : Node} (countable : tree.Every IsCountable) :
    tree.render.AsksOnly Question.IsNumeric := by
  apply render_asksOnly
  apply countable.imp
  intro node own question asks
  rcases own with ⟨proper, noPermutation, noReference⟩
  have answerable := asks.isAnswerable proper.repeatsInOrder
  cases question with
  | index bound => exact answerable
  | between low high => exact answerable
  | shuffle characters =>
      obtain ⟨operands, same⟩ := asks.exists_permutation
      exact absurd same (noPermutation operands)
  | resolve name => exact absurd asks.eq_reference (noReference name)

/-- The count of a tree is the number of its traces, if that fits. -/
def CountsTraces (tree : Node) : Prop :=
  tree.count = .done (Counted.fit tree.render.traceCount) ∧ 0 < tree.render.traceCount

theorem countProduct_eq_fit {nodes : List Node} (each : ∀ node ∈ nodes, node.CountsTraces)
    {product : Nat} (positive : 0 < product) (fits : product < doubleWordSize) :
    countProduct product nodes =
      .done (Counted.fit (product * ((renderEach nodes).map traceCount).prod)) := by
  induction nodes generalizing product with
  | nil =>
      rw [countProduct, renderEach, List.map_nil, List.prod_nil, Nat.mul_one,
        Counted.fit_of_lt fits]
  | cons node rest ih =>
      obtain ⟨⟨counted, some⟩, later⟩ := List.forall_mem_cons.mp each
      -- No later factor is zero, so a part that does not fit cannot be undone.
      have restPositive : 0 < ((renderEach rest).map traceCount).prod := by
        rw [renderEach_eq_map]
        apply List.prod_pos
        simpa using fun child member => (later child member).2
      have grows := Nat.le_mul_of_pos_right node.render.traceCount restPositive
      rw [countProduct, counted, renderEach, List.map_cons, List.prod_cons]
      refine Counted.finish_fit_of_le Recipe.done ?_ fun outcomesFit => ?_
      · exact Nat.le_trans grows (Nat.le_mul_of_pos_left _ positive)
      · refine Counted.finish_fit_of_le Recipe.done ?_ fun productFits => ?_
        · exact Nat.mul_le_mul_left product grows
        · rw [ih later (Nat.mul_pos positive some) productFits, Nat.mul_assoc]

theorem countSum_eq_fit {nodes : List Node} (each : ∀ node ∈ nodes, node.CountsTraces)
    {sum : Nat} (fits : sum < doubleWordSize) :
    countSum sum nodes =
      .done (Counted.fit (sum + ((renderEach nodes).map traceCount).sum)) := by
  induction nodes generalizing sum with
  | nil =>
      rw [countSum, renderEach, List.map_nil, List.sum_nil, Nat.add_zero,
        Counted.fit_of_lt fits]
  | cons node rest ih =>
      obtain ⟨⟨counted, -⟩, later⟩ := List.forall_mem_cons.mp each
      rw [countSum, counted, renderEach, List.map_cons, List.sum_cons]
      refine Counted.finish_fit_of_le Recipe.done (by omega) fun outcomesFit => ?_
      refine Counted.finish_fit_of_le Recipe.done (by omega) fun sumFits => ?_
      rw [ih later sumFits, Nat.add_assoc]

theorem countsTraces {tree : Node} (countable : tree.Every IsCountable) :
    tree.CountsTraces := by
  induction tree using treeInduction with
  | step tree ih =>
      refine ⟨?_, traceCount_pos (render_isNumeric countable)⟩
      obtain ⟨⟨proper, noPermutation, noReference⟩, below⟩ := every_iff.mp countable
      have each : ∀ node ∈ tree.subnodes, node.CountsTraces :=
        fun node member => ih node member (below node member)
      cases tree with
      | literal text => rfl
      | characterSet members repetition =>
          rcases proper with ⟨someMember, ordered⟩
          rw [count, render, traceCount_renderSet someMember]
          rw [countStrings_eq_fit _ ordered.low_le_high ordered.sub_lt_wordSize]
      | sequence children =>
          simp only [subnodes] at each
          rw [count, countProduct_eq_fit each Nat.zero_lt_one (by decide), Nat.one_mul, render,
            Recipe.concat, traceCount_concatBehind]
      | alternation operands =>
          simp only [subnodes] at each
          have someOperand : renderEach operands ≠ [] := by
            rintro none
            rw [renderEach_eq_map, List.map_eq_nil_iff] at none
            rw [none] at proper
            cases proper
          rw [count, countSum_eq_fit each (by decide), Nat.zero_add, render,
            traceCount_oneOf someOperand]
      | permutation operands => exact absurd rfl (noPermutation operands)
      | reference name => exact absurd rfl (noReference name)

/-- The answers from a list that lead a rendering from its start to its end. -/
def drawTraces (tree : Node) (bindings : Bindings) : Set (List Nat) :=
  {answers | ∃ text, tree.render.IsDrivenBy bindings answers text}

theorem drawTraces_eq_traces {tree : Node} (countable : tree.Every IsCountable)
    (bindings : Bindings) : tree.drawTraces bindings = ↑tree.render.traces := by
  have numeric := render_isNumeric countable
  have plain : tree.render.AsksOnly (Question.IsPlainIn bindings) := by
    apply numeric.imp
    intro question isNumeric
    cases question with
    | resolve name => cases isNumeric
    | index bound => trivial
    | between low high => trivial
    | shuffle characters => trivial
  ext answers
  rw [Finset.mem_coe, mem_traces_iff numeric]
  exact exists_congr fun text => isDrivenBy_iff plain

/--
The count of a pattern without references and permutations is the number of the traces of its
renderings: that number itself if it fits in a double word, and otherwise a fault that says so.
-/
theorem count_eq_ncard_drawTraces {limits : Limits} {pattern : List Char} {tree : Node}
    (read : parse limits pattern = .ok tree) (closed : tree.hasReference = false)
    (flat : tree.IsPermutationFree) {σ : Type} (provider : Provider σ) (session : Session σ)
    (bindings : Bindings) :
    (tree.drawTraces bindings).Finite ∧
      session.follow provider tree.count =
        (if (tree.drawTraces bindings).ncard < doubleWordSize then
            .ok (tree.drawTraces bindings).ncard
          else .error .overflow,
          session) ∧
      CountFault.overflow.message = "outcome count does not fit in 128 bits" := by
  have countable : tree.Every IsCountable :=
    (every_isProper_of_parse read).and (flat.and (hasReference_eq_false_iff.mp closed))
  rw [drawTraces_eq_traces countable, Set.ncard_coe_finset,
    card_traces (render_isNumeric countable), (countsTraces countable).1]
  exact ⟨Finset.finite_toSet _, rfl, rfl⟩

/-- One to three of two letters, or a third one: fifteen traces. -/
theorem ncard_drawTraces_of_letters :
    let pattern := "[ab]\x7b1:3\x7d|c".toList
    let tree : Node := .sequence
      [.alternation [.characterSet ['a', 'b'] (.between 1 3), .literal ['c']]]
    parse {} pattern = .ok tree ∧ tree.hasReference = false ∧ tree.IsPermutationFree ∧
      (tree.drawTraces .empty).ncard = 15 := by
  intro pattern tree
  have read : parse {} pattern = .ok tree := by decide +kernel
  have closed : tree.hasReference = false := rfl
  have flat : tree.IsPermutationFree := by
    simp [tree, IsPermutationFree, Every, EveryAmong]
  refine ⟨read, closed, flat, ?_⟩
  have counted := (count_eq_ncard_drawTraces read closed flat
    (Provider.ofIndex Pick.lowest "lowest") ⟨(), .empty, []⟩ .empty).2.1
  have fifteen : tree.count = .done (.ok 15) := rfl
  rw [fifteen] at counted
  have same := congrArg Prod.fst counted
  simp only [Session.follow] at same
  split at same
  · exact (Except.ok.inj same).symm
  · cases same

end Node

end TextTemplate
