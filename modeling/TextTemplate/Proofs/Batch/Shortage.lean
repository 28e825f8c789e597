import TextTemplate.Proofs.Batch.Texts
import TextTemplate.Proofs.Count.Renderings
import TextTemplate.Proofs.Random.Providers

/-!
# Requests for more texts than there are

The count of a pattern bounds the number of texts that any provider within bounds can lead to.
A distinct batch of more texts than that uses up its attempts and says so.
-/

namespace TextTemplate

open Batch

/-- A front of a stream has no more different items than there are for it to take. -/
theorem Batch.distinctCount_le_of_encard_le {σ α : Type} [DecidableEq α] [BEq α] [LawfulBEq α]
    {next : σ → α × σ} {items : Set α} {number : Nat} (bound : items.encard ≤ number)
    (inItems : ∀ state, (next state).1 ∈ items) (count : Nat) (state : σ) :
    distinctCount next count state ≤ number := by
  have taken : ((firstItems next count state).toFinset : Set α) ⊆ items := by
    intro item member
    obtain ⟨index, -, rfl⟩ := List.mem_map.mp (List.mem_toFinset.mp member)
    exact inItems (stateBehind next index state)
  have fewer := (Set.encard_le_encard taken).trans bound
  rw [Set.encard_coe_eq_coe_finsetCard] at fewer
  rw [distinctCount, length_eraseDups_eq_card]
  exact_mod_cast fewer

namespace Generator

variable {σ : Type}

/-- Whatever the session, a tree without references is rendered to a text of its language. -/
theorem render_mem_language {generator : Generator σ} (within : generator.provider.AnswersWithin)
    (ordered : generator.tree.IsOrdered) (closed : generator.tree.hasReference = false)
    (bindings : Bindings) (session : Session σ) :
    generator.tree.Language bindings (generator.render session).1 := by
  apply (Node.render_yields_iff ordered _).mp
  exact Session.yields_follow_of_answersWithin within ordered.render_isAnswerable
    (Node.render_isDraw closed) session

/--
A distinct batch of more texts than the count of a pattern fails, whatever the attempts, the
bindings and the state of the randomness.  It tells how many texts it found, which are no more
than the count, and that it made all its attempts.  The provider need only answer within
bounds; one that makes its integers from indices within bounds does, and so does the seeded one.
-/
theorem renderDistinct_of_count_lt {limits : Limits} {pattern : List Char}
    (generator : Generator σ) (read : parse limits pattern = .ok generator.tree)
    (closed : generator.tree.hasReference = false)
    (literals : generator.tree.Every Node.PermutesLiterals)
    (within : generator.provider.AnswersWithin) {counting : Session σ} {number requested : Nat}
    (counted : (generator.count counting).1 = .ok number) (more : number < requested)
    (session : Session σ) :
    ∃ produced ≤ number, (generator.renderDistinct requested session).outcome =
      .error ⟨requested, produced,
        min (requested * generator.config.attemptsFactor) (2 ^ 64 - 1)⟩ := by
  have proper := Node.every_isProper_of_parse read
  have ordered : generator.tree.IsOrdered := proper.imp fun node own => own.repeatsInOrder
  have bounded : generator.tree.Every Node.IsBounded :=
    proper.and (literals.and (Node.hasReference_eq_false_iff.mp closed))
  have bound : {text | generator.tree.Language .empty text}.encard ≤ number :=
    Node.boundsLanguage bounded counting number counted
  have fewer (attempts : Nat) : distinctCount generator.render attempts session ≤ number :=
    distinctCount_le_of_encard_le bound (render_mem_language within ordered closed .empty)
      attempts session
  obtain ⟨attempts, stops, batch⟩ := exists_renderDistinct_eq generator requested session
  have short : distinctCount generator.render attempts session < requested :=
    Nat.lt_of_le_of_lt (fewer attempts) more
  refine ⟨distinctCount generator.render attempts session, fewer attempts, ?_⟩
  rw [batch, if_pos short]
  obtain ⟨complete, -⟩ | ⟨-, spent⟩ := stops.complete_or_spent
  · exact absurd complete (Nat.ne_of_lt short)
  · rw [spent]
    rfl

/-- Four texts, five of them requested: fifteen attempts, from every state of the counter. -/
theorem renderDistinct_of_four_texts :
    let tree : Node := .sequence
      [.permutation ([['a'], ['b']].map .literal), .characterSet ['x', 'y'] .once]
    let provider : Provider Nat :=
      ⟨"backwards", Pick.cycle, integerWith Pick.cycle, fun characters state =>
        (characters.reverse, state)⟩
    let generator : Generator Nat := ⟨"a&b[xy]".toList, tree, { attemptsFactor := 3 }, provider⟩
    (generator.count ⟨0, .empty, []⟩).1 = .ok 4 ∧ ∀ session, ∃ produced ≤ 4,
      (generator.renderDistinct 5 session).outcome = .error ⟨5, produced, 15⟩ := by
  intro tree provider generator
  have read : parse {} "a&b[xy]".toList = .ok generator.tree := by decide +kernel
  have literals : tree.Every Node.PermutesLiterals := by
    refine ⟨nofun, Node.every_permutation_literals ?_ nofun, nofun, trivial⟩
    rintro operands ⟨⟩
    exact ⟨[['a'], ['b']], rfl⟩
  have within : provider.AnswersWithin := by
    refine Provider.answersWithin_of_integerWith ?_ rfl ?_
    · exact fun bound state positive => Nat.mod_lt state positive
    · exact fun characters state => characters.reverse_perm
  have sorted : ['a', 'b'].mergeSort (· ≤ ·) = ['a', 'b'] := by
    simp [List.mergeSort, List.MergeSort.Internal.splitInTwo]
  have two : (Node.permutation ([['a'], ['b']].map .literal)).count = .done (.ok 2) := by
    rw [Node.count_permutation_literals, countArrangements, Arrangements.groupSizes]
    exact congrArg (fun text => Recipe.done (Arrangements.multinomial
      (Arrangements.runLengths text))) sorted
  have four : tree.count = .done (.ok 4) := by
    rw [Node.count, Node.countProduct, two]
    rfl
  have counted : (generator.count ⟨0, .empty, []⟩).1 = .ok 4 := by
    rw [Generator.count, four]
    rfl
  exact ⟨counted,
    renderDistinct_of_count_lt generator read rfl literals within counted (by decide)⟩

end Generator

end TextTemplate
