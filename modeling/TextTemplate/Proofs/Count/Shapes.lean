import TextTemplate.Diagnostic
import TextTemplate.Proofs.Count.Arrangements
import TextTemplate.Proofs.Count.Questions
import TextTemplate.Proofs.Count.Strings
import TextTemplate.Render.Session

/-!
# Which trees can be counted

A reference, or a permutation of more than literals and sets, spoils the count of every tree
that it stands in.  Without them the only thing that can go wrong is a number that does not fit.
Neither depends on what is answered while counting.
-/

namespace TextTemplate

namespace Recipe

variable {α β : Type} {good : α → Prop}

/-- Every value that a recipe can end with is good, whatever it is answered. -/
def EndsIn (good : α → Prop) : Recipe α → Prop
  | .done value => good value
  | .index _ next => ∀ answer, (next answer).EndsIn good
  | .between _ _ next => ∀ answer, (next answer).EndsIn good
  | .shuffle _ next => ∀ answer, (next answer).EndsIn good
  | .resolve _ next => ∀ answer, (next answer).EndsIn good

/-- Two recipes in a row end as the second does behind what the first can end with. -/
theorem endsIn_bind {good : β → Prop} {recipe : Recipe α} {following : α → Recipe β} :
    (recipe.bind following).EndsIn good ↔
      recipe.EndsIn fun value => (following value).EndsIn good := by
  induction recipe with
  | done value => rfl
  | index bound next ih => exact forall_congr' ih
  | between low high next ih => exact forall_congr' ih
  | shuffle characters next ih => exact forall_congr' ih
  | resolve name next ih => exact forall_congr' ih

theorem EndsIn.imp {better : α → Prop} {recipe : Recipe α} (ends : recipe.EndsIn better)
    (weakens : ∀ value, better value → good value) : recipe.EndsIn good := by
  induction recipe with
  | done value => exact weakens value ends
  | index bound next ih => exact fun answer => ih answer (ends answer)
  | between low high next ih => exact fun answer => ih answer (ends answer)
  | shuffle characters next ih => exact fun answer => ih answer (ends answer)
  | resolve name next ih => exact fun answer => ih answer (ends answer)

theorem endsIn_of_forall (holds : ∀ value, good value) (recipe : Recipe α) :
    recipe.EndsIn good := by
  induction recipe with
  | done value => exact holds value
  | index bound next ih => exact ih
  | between low high next ih => exact ih
  | shuffle characters next ih => exact ih
  | resolve name next ih => exact ih

/-- No provider and no session leads anywhere else. -/
theorem EndsIn.follow {σ : Type} {recipe : Recipe α} (ends : recipe.EndsIn good)
    (provider : Provider σ) (session : Session σ) :
    good (session.follow provider recipe).1 := by
  induction recipe generalizing session with
  | done value => exact ends
  | index bound next ih => exact ih _ (ends _) _
  | between low high next ih => exact ih _ (ends _) _
  | shuffle characters next ih => exact ih _ (ends _) _
  | resolve name next ih => exact ih _ (ends _) _

end Recipe

/-! ## What can go wrong with numbers -/

namespace Counted

/-- There is no count. -/
def IsFault (counted : Counted) : Prop := ∃ fault, counted = .error fault

/-- There is a count unless some number does not fit. -/
def OnlyOverflows (counted : Counted) : Prop := ∀ fault, counted = .error fault → fault = .overflow

theorem onlyOverflows_ok (number : Nat) : OnlyOverflows (.ok number) := by
  rintro fault ⟨⟩

theorem onlyOverflows_overflow : OnlyOverflows (.error .overflow) := by
  rintro fault ⟨⟩
  rfl

theorem onlyOverflows_fit (number : Nat) : OnlyOverflows (fit number) := by
  unfold fit
  split
  · exact onlyOverflows_ok number
  · exact onlyOverflows_overflow

/-- Going on with a count ends well if it does so with every number and with an overflow. -/
theorem OnlyOverflows.elim {γ : Type} {good : γ → Prop} {counted : Counted}
    {failed : CountFault → γ} {next : Nat → γ} :
    OnlyOverflows counted → good (failed .overflow) → (∀ number, good (next number)) →
      good (match counted with
        | .error fault => failed fault
        | .ok number => next number) := by
  intro only overflows goesOn
  cases counted with
  | ok number => exact goesOn number
  | error fault =>
      obtain rfl := only fault rfl
      exact overflows

theorem OnlyOverflows.eq_ok_or_eq_overflow {counted : Counted} (only : OnlyOverflows counted) :
    (∃ number, counted = .ok number) ∨ counted = .error .overflow := by
  cases counted with
  | ok number => exact .inl ⟨number, rfl⟩
  | error fault => exact .inr (congrArg _ (only fault rfl))

end Counted

open Counted Recipe

theorem countStrings_onlyOverflows (base low high : Nat) :
    OnlyOverflows (countStrings base low high) := by
  match base with
  | 0 => exact onlyOverflows_ok _
  | 1 => exact onlyOverflows_ok _
  | base + 2 =>
      rw [countStrings_of_two_le (Nat.le_add_left 2 base)]
      exact onlyOverflows_fit _

theorem countArrangements_onlyOverflows (text : List Char) :
    OnlyOverflows (countArrangements text) := by
  rw [countArrangements_eq]
  split
  · exact onlyOverflows_ok _
  · exact onlyOverflows_overflow

namespace Node

/-! ## Products and sums of counts -/

namespace JoinsCounts

variable {combine : Nat → Nat → Counted} {countEach : Nat → List Node → Recipe Counted}
  {nodes : List Node}

/-- One node that has no count leaves the nodes together without one. -/
theorem isFault (joins : JoinsCounts combine countEach)
    (spoilt : ∃ node ∈ nodes, node.count.EndsIn IsFault) (result : Nat) :
    (countEach result nodes).EndsIn IsFault := by
  induction nodes generalizing result with
  | nil => simp at spoilt
  | cons node rest ih =>
      rw [joins.cons, countThen, endsIn_bind]
      rcases List.or_exists_of_exists_mem_cons spoilt with here | later
      · refine here.imp ?_
        rintro _ ⟨fault, rfl⟩
        exact ⟨fault, rfl⟩
      · -- Counting may fail before it comes to that node.
        refine endsIn_of_forall (fun counted => ?_) node.count
        cases counted with
        | error fault => exact ⟨fault, rfl⟩
        | ok outcomes =>
            dsimp only
            cases combine result outcomes with
            | error fault => exact ⟨fault, rfl⟩
            | ok value => exact ih later value

theorem onlyOverflows (joins : JoinsCounts combine countEach)
    (combines : ∀ result outcomes, OnlyOverflows (combine result outcomes))
    (each : ∀ node ∈ nodes, node.count.EndsIn OnlyOverflows) (result : Nat) :
    (countEach result nodes).EndsIn OnlyOverflows := by
  induction nodes generalizing result with
  | nil =>
      rw [joins.nil]
      exact onlyOverflows_ok result
  | cons node rest ih =>
      obtain ⟨first, later⟩ := List.forall_mem_cons.mp each
      rw [joins.cons, countThen, endsIn_bind]
      refine first.imp fun counted only => ?_
      refine only.elim onlyOverflows_overflow fun outcomes => ?_
      refine (combines result outcomes).elim onlyOverflows_overflow fun value => ?_
      exact ih later value

end JoinsCounts

/-! ## Trees -/

/-- The operands of a permutation are literals and sets. -/
def HasFlatOperands : Node → Prop
  | .permutation operands => ∀ operand ∈ operands, operand.IsFlat
  | _ => True

/-- A node that spoils no count of a tree that it stands in. -/
def KeepsCount : Node → Prop
  | .reference _ => False
  | node => node.HasFlatOperands

theorem keepsCount_iff {node : Node} :
    node.KeepsCount ↔ (∀ name, node ≠ .reference name) ∧ node.HasFlatOperands := by
  cases node <;> simp [KeepsCount, HasFlatOperands]

theorem every_keepsCount_iff {tree : Node} :
    tree.Every KeepsCount ↔ tree.hasReference = false ∧ tree.Every HasFlatOperands := by
  rw [hasReference_eq_false_iff]
  constructor
  · intro keeps
    exact ⟨keeps.imp fun _ root => (keepsCount_iff.mp root).1,
      keeps.imp fun _ root => (keepsCount_iff.mp root).2⟩
  · rintro ⟨bare, flat⟩
    exact (bare.and flat).imp fun _ root => keepsCount_iff.mpr root

theorem every_keepsCount_of_isFlat {node : Node} (flat : node.IsFlat) :
    node.Every KeepsCount := by
  apply every_of_isFlat flat
  cases node with
  | literal text => trivial
  | characterSet members repetition => trivial
  | _ => cases flat

/-- A tree of nodes that spoil nothing is counted, as long as all numbers fit. -/
theorem count_onlyOverflows {tree : Node} (keeps : tree.Every KeepsCount) :
    tree.count.EndsIn OnlyOverflows := by
  induction tree using treeInduction with
  | step tree ih =>
      obtain ⟨root, below⟩ := every_iff.mp keeps
      have each : ∀ node ∈ tree.subnodes, node.count.EndsIn OnlyOverflows :=
        fun node member => ih node member (below node member)
      cases tree with
      | literal text => exact onlyOverflows_ok 1
      | characterSet members repetition => exact countStrings_onlyOverflows _ _ _
      | sequence children =>
          exact countProduct_joinsCounts.onlyOverflows (fun _ _ => onlyOverflows_fit _) each 1
      | alternation operands =>
          exact countSum_joinsCounts.onlyOverflows (fun _ _ => onlyOverflows_fit _) each 0
      | permutation operands =>
          have noFault := operandFault?_eq_none_iff.mpr root
          rw [count, noFault]
          exact endsIn_bind.mpr (endsIn_of_forall countArrangements_onlyOverflows _)
      | reference name => cases root

/-- One node spoils the count, however deep in the tree it stands. -/
theorem count_isFault {tree : Node} (spoilt : ¬ tree.Every KeepsCount) :
    tree.count.EndsIn IsFault := by
  induction tree using treeInduction with
  | step tree ih =>
      have inside (root : tree.KeepsCount) :
          ∃ node ∈ tree.subnodes, node.count.EndsIn IsFault := by
        obtain ⟨node, member, below⟩ := exists_subnode_of_not_every spoilt root
        exact ⟨node, member, ih node member below⟩
      cases tree with
      | literal text => exact absurd trivial spoilt
      | characterSet members repetition => exact absurd trivial spoilt
      | sequence children => exact countProduct_joinsCounts.isFault (inside trivial) 1
      | alternation operands => exact countSum_joinsCounts.isFault (inside trivial) 0
      | permutation operands =>
          rw [count]
          cases fault : operandFault? operands with
          | some found => exact ⟨found, rfl⟩
          | none =>
              have flat := operandFault?_eq_none_iff.mp fault
              refine absurd (every_iff.mpr ⟨flat, ?_⟩) spoilt
              exact fun operand member => every_keepsCount_of_isFlat (flat operand member)
      | reference name => exact ⟨.reference name, rfl⟩

/--
The shape of a tree decides whether it is counted, whatever a provider draws: one with a
reference or with a permutation of more than literals and sets never is, and any other is
unless its count does not fit.
-/
theorem count_by_shape {σ : Type} (provider : Provider σ) (session : Session σ) (tree : Node) :
    let counted := (session.follow provider tree.count).1
    (tree.hasReference = true ∨ ¬ tree.Every HasFlatOperands → ∃ fault, counted = .error fault) ∧
      (tree.hasReference = false ∧ tree.Every HasFlatOperands →
        (∃ number, counted = .ok number) ∨ counted = .error .overflow) ∧
      ∀ fault, counted = .error fault → (Diagnostic.ofCountFault fault).kind = "capability" := by
  refine ⟨?_, ?_, fun fault _ => rfl⟩
  · intro spoilt
    refine (count_isFault ?_).follow provider session
    rw [every_keepsCount_iff, not_and_or, Bool.not_eq_false]
    exact spoilt
  · intro countable
    exact ((count_onlyOverflows (every_keepsCount_iff.mpr countable)).follow provider
      session).eq_ok_or_eq_overflow

/-- A group among the operands of a permutation spoils its count, and sets in their place do not. -/
theorem count_by_shape_of_grouped_operand :
    let provider := Provider.ofIndex Pick.lowest "lowest"
    let session : Session Unit := { randomness := () }
    let grouped := Node.sequence
      [.literal ['a'], .permutation [.alternation [.literal ['b'], .literal ['c']], .literal ['d']]]
    let flat := Node.sequence
      [.literal ['a'], .permutation [.characterSet ['b', 'c'] (.exactly 1), .literal ['d']]]
    (¬ grouped.Every HasFlatOperands ∧ ∃ fault,
        (session.follow provider grouped.count).1 = .error fault ∧
          (Diagnostic.ofCountFault fault).kind = "capability") ∧
      (flat.hasReference = false ∧ flat.Every HasFlatOperands) ∧
        ((∃ number, (session.follow provider flat.count).1 = .ok number) ∨
          (session.follow provider flat.count).1 = .error .overflow) := by
  intro provider session grouped flat
  have spoilt : ¬ grouped.Every HasFlatOperands := by
    simp [grouped, Every, EveryAmong, HasFlatOperands, IsFlat]
  have countable : flat.hasReference = false ∧ flat.Every HasFlatOperands := by
    simp [flat, hasReference, hasReferenceAny, Every, EveryAmong, HasFlatOperands, IsFlat]
  obtain ⟨fault, failed⟩ := (count_by_shape provider session grouped).1 (.inr spoilt)
  have kind := (count_by_shape provider session grouped).2.2 fault failed
  exact ⟨⟨spoilt, fault, failed, kind⟩, countable,
    (count_by_shape provider session flat).2.1 countable⟩

end Node

end TextTemplate
