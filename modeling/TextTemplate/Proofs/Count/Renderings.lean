import Mathlib.Data.Set.Card.Arithmetic
import TextTemplate.Proofs.Count.Arrangements
import TextTemplate.Proofs.Count.Questions
import TextTemplate.Proofs.Count.Traces
import TextTemplate.Proofs.Render.Texts

/-!
# Counts and texts

A count is a bound for the number of different texts, as long as the operands of permutations
are literals.  Over such a permutation alone it is that number.
-/

namespace TextTemplate

open Recipe

/-! ## Numbers of values -/

/-- A recipe has no more values than traces. -/
theorem Recipe.encard_yields_le {α : Type} {resolves : List Char → List Nat → List Char → Prop}
    {recipe : Recipe α} (numeric : recipe.AsksOnly Question.IsNumeric) :
    {value | recipe.Yields resolves value}.encard ≤ recipe.traceCount := by
  unfold traceCount
  induction recipe with
  | done value => simp [yields_done, tally]
  | index bound next ih =>
      have values : {value | (Recipe.index bound next).Yields resolves value} =
          ⋃ answer ∈ Finset.range bound, {value | (next answer).Yields resolves value} := by
        ext value
        simp [yields_index]
      rw [values, tally]
      refine (Finset.set_encard_biUnion_le _ _).trans ?_
      push_cast
      exact Finset.sum_le_sum fun answer _ => ih answer (numeric.2 answer)
  | between low high next ih =>
      have values : {value | (Recipe.between low high next).Yields resolves value} =
          ⋃ number ∈ Finset.Icc low high, {value | (next number).Yields resolves value} := by
        ext value
        simp [yields_between numeric.1.1 numeric.1.2]
      rw [values, tally]
      refine (Finset.set_encard_biUnion_le _ _).trans ?_
      push_cast
      exact Finset.sum_le_sum fun number _ => ih number (numeric.2 number)
  | shuffle characters next ih => exact absurd numeric.1 id
  | resolve name next ih => exact absurd numeric.1 id

namespace Node

variable {σ : Type} {provider : Provider σ} {bindings : Bindings}

/-! ## Literals in permutations -/

/-- A permutation has literals for operands; of other nodes nothing is asked. -/
def PermutesLiterals (node : Node) : Prop :=
  ∀ operands, node = .permutation operands →
    ∃ texts : List (List Char), operands = texts.map .literal

theorem every_permutation_literals {condition : Node → Prop} {texts : List (List Char)}
    (root : condition (.permutation (texts.map .literal)))
    (each : ∀ text, condition (.literal text)) :
    (Node.permutation (texts.map .literal)).Every condition := by
  refine every_iff.mpr ⟨root, ?_⟩
  intro child member
  obtain ⟨text, -, rfl⟩ := List.mem_map.mp member
  exact each text

theorem operandFault?_literals (texts : List (List Char)) :
    operandFault? (texts.map .literal) = none := by
  induction texts with
  | nil => rfl
  | cons text rest ih => exact ih

theorem concat_literals (texts : List (List Char)) :
    concat (renderEach (texts.map .literal)) = .done texts.flatten := by
  suffices behind : ∀ earlier, concatBehind earlier (renderEach (texts.map .literal)) =
      .done (earlier.reverse ++ texts.flatten) from behind []
  induction texts with
  | nil => simp [renderEach, concatBehind]
  | cons text rest ih =>
      intro earlier
      simp [renderEach, concatBehind, render, Recipe.bind, ih]

/-- Literals are counted without a sample. -/
theorem count_permutation_literals (texts : List (List Char)) :
    (Node.permutation (texts.map .literal)).count = .done (countArrangements texts.flatten) := by
  rw [count, operandFault?_literals, concat_literals]
  rfl

theorem languageAll_literals {texts : List (List Char)} {text : List Char} :
    LanguageAll bindings (texts.map .literal) text ↔ text = texts.flatten := by
  induction texts generalizing text with
  | nil => rfl
  | cons first rest ih => simp [LanguageAll, Language, ih]

theorem language_permutation_literals (texts : List (List Char)) :
    {text | (Node.permutation (texts.map .literal)).Language bindings text} =
      arrangements texts.flatten := by
  ext text
  simp [Language, languageAll_literals]

/-! ## Numbers of texts -/

/-- A count of a tree is a bound for the number of texts in its language. -/
def BoundsLanguage (provider : Provider σ) (bindings : Bindings) (tree : Node) : Prop :=
  ∀ (session : Session σ) (number : Nat), (session.follow provider tree.count).1 = .ok number →
    {text | tree.Language bindings text}.encard ≤ number

/-- A count that goes into a larger one gives a number, and so does the larger one behind it. -/
theorem exists_of_follow_countThen {node : Node} {session : Session σ} {number : Nat}
    {combine : Nat → Counted} {next : Nat → Recipe Counted}
    (counted : (session.follow provider (countThen node combine next)).1 = .ok number) :
    ∃ outcomes value, (session.follow provider node.count).1 = .ok outcomes ∧
      combine outcomes = .ok value ∧
      ((session.follow provider node.count).2.follow provider (next value)).1 = .ok number := by
  rw [countThen, Session.follow_bind] at counted
  cases first : (session.follow provider node.count).1 with
  | error fault =>
      rw [first] at counted
      cases counted
  | ok outcomes =>
      simp only [first] at counted
      cases combined : combine outcomes with
      | error fault =>
          rw [combined] at counted
          cases counted
      | ok value =>
          simp only [combined] at counted
          exact ⟨outcomes, value, rfl, combined, counted⟩

theorem encard_setLanguage_le {members : List Char} {repetition : Repetition}
    (proper : (Node.characterSet members repetition).IsProper) {number : Nat}
    (counted : countStrings members.length repetition.low repetition.high = .ok number) :
    {text | setLanguage members repetition text}.encard ≤ number := by
  obtain ⟨someMember, ordered⟩ := proper
  rw [countStrings_eq_fit _ ordered.low_le_high ordered.sub_lt_wordSize] at counted
  obtain ⟨rfl, -⟩ := Counted.fit_eq_ok_iff.mp counted
  have numeric : (renderSet members.toArray repetition).AsksOnly Question.IsNumeric := by
    have countable : (Node.characterSet members repetition).Every IsCountable :=
      ⟨⟨someMember, ordered⟩, by simp, by simp⟩
    exact render_isNumeric countable
  have values : {text | setLanguage members repetition text} = {text |
      (renderSet members.toArray repetition).Yields Bindings.empty.Chooses text} := by
    ext text
    exact (renderSet_yields ordered).symm
  rw [← traceCount_renderSet someMember, values]
  exact encard_yields_le numeric

theorem encard_languageAll_cons_le (node : Node) (rest : List Node) :
    {text | LanguageAll bindings (node :: rest) text}.encard ≤
      {text | node.Language bindings text}.encard *
        {text | LanguageAll bindings rest text}.encard := by
  have joined : {text | LanguageAll bindings (node :: rest) text} =
      (fun parts : List Char × List Char => parts.1 ++ parts.2) ''
        ({text | node.Language bindings text} ×ˢ {text | LanguageAll bindings rest text}) := by
    ext text
    simp only [LanguageAll, Set.mem_ofPred_eq, Set.mem_image, Set.mem_prod, Prod.exists]
    constructor
    · rintro ⟨first, later, inFirst, inRest, rfl⟩
      exact ⟨first, later, ⟨inFirst, inRest⟩, rfl⟩
    · rintro ⟨first, later, ⟨inFirst, inRest⟩, rfl⟩
      exact ⟨first, later, inFirst, inRest, rfl⟩
  rw [joined, ← Set.encard_prod]
  exact Set.encard_image_le _ _

theorem exists_of_countProduct {nodes : List Node}
    (each : ∀ node ∈ nodes, node.BoundsLanguage provider bindings) {session : Session σ}
    {product number : Nat}
    (counted : (session.follow provider (countProduct product nodes)).1 = .ok number) :
    ∃ factor, number = product * factor ∧
      {text | LanguageAll bindings nodes text}.encard ≤ factor := by
  induction nodes generalizing product session with
  | nil =>
      refine ⟨1, ?_, ?_⟩
      · rw [Nat.mul_one]
        exact (Except.ok.inj counted).symm
      · simp [LanguageAll]
  | cons node rest ih =>
      obtain ⟨first, later⟩ := List.forall_mem_cons.mp each
      rw [countProduct_cons] at counted
      obtain ⟨outcomes, value, countedFirst, multiplied, countedRest⟩ :=
        exists_of_follow_countThen counted
      obtain ⟨rfl, -⟩ := Counted.fit_eq_ok_iff.mp multiplied
      obtain ⟨factor, rfl, bound⟩ := ih later countedRest
      refine ⟨outcomes * factor, Nat.mul_assoc product outcomes factor, ?_⟩
      push_cast
      exact (encard_languageAll_cons_le node rest).trans
        (mul_le_mul' (first session outcomes countedFirst) bound)

theorem exists_of_countSum {nodes : List Node}
    (each : ∀ node ∈ nodes, node.BoundsLanguage provider bindings) {session : Session σ}
    {sum number : Nat}
    (counted : (session.follow provider (countSum sum nodes)).1 = .ok number) :
    ∃ more, number = sum + more ∧ {text | LanguageAny bindings nodes text}.encard ≤ more := by
  induction nodes generalizing sum session with
  | nil =>
      refine ⟨0, (Except.ok.inj counted).symm, ?_⟩
      simp [LanguageAny]
  | cons node rest ih =>
      obtain ⟨first, later⟩ := List.forall_mem_cons.mp each
      rw [countSum_cons] at counted
      obtain ⟨outcomes, value, countedFirst, added, countedRest⟩ :=
        exists_of_follow_countThen counted
      obtain ⟨rfl, -⟩ := Counted.fit_eq_ok_iff.mp added
      obtain ⟨more, rfl, bound⟩ := ih later countedRest
      refine ⟨outcomes + more, Nat.add_assoc sum outcomes more, ?_⟩
      push_cast
      exact (Set.encard_union_le _ _).trans
        (add_le_add (first session outcomes countedFirst) bound)

/-- What a proper tree has to be for its count to bound its texts. -/
def IsBounded (node : Node) : Prop :=
  node.IsProper ∧ node.PermutesLiterals ∧ ∀ name, node ≠ .reference name

theorem boundsLanguage {tree : Node} (bounded : tree.Every IsBounded) :
    tree.BoundsLanguage provider bindings := by
  induction tree using treeInduction with
  | step tree ih =>
      obtain ⟨⟨proper, literals, noReference⟩, below⟩ := every_iff.mp bounded
      have each : ∀ node ∈ tree.subnodes, node.BoundsLanguage provider bindings :=
        fun node member => ih node member (below node member)
      intro session number counted
      cases tree with
      | literal text =>
          obtain rfl := Except.ok.inj counted
          simp [Language]
      | characterSet members repetition => exact encard_setLanguage_le proper counted
      | sequence children =>
          obtain ⟨factor, rfl, bound⟩ := exists_of_countProduct each counted
          rw [Nat.one_mul]
          exact bound
      | alternation operands =>
          simp only [subnodes] at each
          obtain ⟨more, rfl, bound⟩ := exists_of_countSum each counted
          have someOperand : operands ≠ [] := by
            rintro rfl
            cases proper
          simpa [Language, someOperand] using bound
      | permutation operands =>
          obtain ⟨texts, rfl⟩ := literals operands rfl
          rw [count_permutation_literals] at counted
          rw [language_permutation_literals, eq_card_of_countArrangements counted,
            Set.encard_coe_eq_coe_finsetCard]
      | reference name => exact absurd rfl (noReference name)

/-! ## Numbers of renderings -/

/-- The texts that a rendering can give, over all answers within the bounds. -/
def renderings (tree : Node) (bindings : Bindings) : Set (List Char) :=
  {text | ∃ answers, tree.render.IsDrivenBy bindings answers text}

theorem render_isPlainIn {tree : Node} (closed : tree.hasReference = false) :
    tree.render.AsksOnly (Question.IsPlainIn bindings) := by
  apply (render_isDraw closed).imp
  intro question draws
  cases question with
  | resolve name => exact absurd rfl (draws name)
  | index bound => trivial
  | between low high => trivial
  | shuffle characters => trivial

theorem renderings_eq_language {tree : Node} (ordered : tree.IsOrdered)
    (closed : tree.hasReference = false) :
    tree.renderings bindings = {text | tree.Language bindings text} := by
  ext text
  simp only [renderings, Set.mem_ofPred_eq, isDrivenBy_iff (render_isPlainIn closed)]
  exact render_yields_iff ordered text

theorem renderings_nonempty {tree : Node} (ordered : tree.IsOrdered)
    (closed : tree.hasReference = false) : (tree.renderings bindings).Nonempty := by
  let session : Session Unit := ⟨(), bindings, []⟩
  obtain ⟨answers, trace⟩ := @Session.yields_follow _ _ _ "lowest" _ session
    Pick.lowest_staysBelow ordered.render_isAnswerable (render_isPlainIn closed)
  exact ⟨_, answers, (isDrivenBy_iff (render_isPlainIn closed)).mpr trace⟩

/--
A count of a pattern without references whose permutations have only literals for operands
is at least one, and at least the number of different texts.  For a permutation of literals
alone it is the number of arrangements of their characters, which are the texts.  The divisions
on the way leave no remainder.
-/
theorem count_bounds_renderings (provider : Provider σ) (session : Session σ)
    (bindings : Bindings) :
    (∀ (limits : Limits) (pattern : List Char) (tree : Node) (number : Nat),
      parse limits pattern = .ok tree → tree.hasReference = false →
        tree.Every PermutesLiterals → (session.follow provider tree.count).1 = .ok number →
          1 ≤ number ∧ (tree.renderings bindings).Finite ∧
            (tree.renderings bindings).ncard ≤ number) ∧
      (∀ (texts : List (List Char)) (number : Nat),
        let tree : Node := .permutation (texts.map .literal)
        (session.follow provider tree.count).1 = .ok number →
          tree.renderings bindings = {arranged | arranged.Perm texts.flatten} ∧
            (tree.renderings bindings).Finite ∧
            number = (tree.renderings bindings).ncard) ∧
      ∀ places chosen : Nat,
        let smaller := min chosen (places - chosen)
        Arrangements.DividesEvenly (places - smaller) 1 smaller 1 := by
  refine ⟨?_, ?_, Arrangements.binomial_dividesEvenly⟩
  · intro limits pattern tree number read closed literals counted
    have proper := every_isProper_of_parse read
    have ordered : tree.IsOrdered := proper.imp fun node own => own.repeatsInOrder
    have bounded : tree.Every IsBounded :=
      proper.and (literals.and (hasReference_eq_false_iff.mp closed))
    have bound : {text | tree.Language bindings text}.encard ≤ number :=
      boundsLanguage bounded session number counted
    rw [← renderings_eq_language ordered closed] at bound
    -- A bound for a number of texts is at least one, because there is a text.
    have some : 1 ≤ (tree.renderings bindings).encard :=
      Set.one_le_encard_iff_nonempty.mpr (renderings_nonempty ordered closed)
    exact ⟨by exact_mod_cast some.trans bound,
      Set.encard_le_coe_iff_finite_ncard_le.mp bound⟩
  · intro texts number tree counted
    have closed : tree.hasReference = false := hasReference_eq_false_iff.mpr
      (every_permutation_literals (by simp) (by simp))
    have ordered : tree.IsOrdered :=
      every_permutation_literals trivial fun text => trivial
    have rearranged : tree.renderings bindings = arrangements texts.flatten := by
      rw [renderings_eq_language ordered closed]
      exact language_permutation_literals texts
    rw [count_permutation_literals] at counted
    rw [rearranged]
    refine ⟨?_, Finset.finite_toSet _, ?_⟩
    · ext arranged
      simp
    · rw [Set.ncard_coe_finset]
      exact eq_card_of_countArrangements counted

/-- Three arrangements of two letters; a member that stands twice is counted twice behind them. -/
theorem ncard_renderings_of_shuffled_letters :
    let shuffled : Node := .permutation ([['a', 'b'], ['a']].map .literal)
    let tree : Node := .sequence [shuffled, .characterSet ['x', 'x'] .once]
    parse {} "ab&a[xx]".toList = .ok tree ∧ tree.hasReference = false ∧
      tree.Every PermutesLiterals ∧ (tree.renderings .empty).ncard ≤ 6 ∧
        (shuffled.renderings .empty).ncard = 3 := by
  intro shuffled tree
  have read : parse {} "ab&a[xx]".toList = .ok tree := by decide +kernel
  have closed : tree.hasReference = false := rfl
  have literals : tree.Every PermutesLiterals := by
    refine ⟨nofun, every_permutation_literals ?_ nofun, nofun, trivial⟩
    rintro operands ⟨⟩
    exact ⟨[['a', 'b'], ['a']], rfl⟩
  have sorted : ['a', 'b', 'a'].mergeSort (· ≤ ·) = ['a', 'a', 'b'] := by
    simp [List.mergeSort, List.MergeSort.Internal.splitInTwo]
  have three : shuffled.count = .done (.ok 3) := by
    rw [count_permutation_literals, countArrangements, Arrangements.groupSizes]
    exact congrArg (fun text => Recipe.done (Arrangements.multinomial
      (Arrangements.runLengths text))) sorted
  have six : tree.count = .done (.ok 6) := by
    rw [count, countProduct, three]
    rfl
  obtain ⟨bounds, exact, -⟩ := count_bounds_renderings
    (Provider.ofIndex Pick.lowest "lowest") ⟨(), .empty, []⟩ .empty
  exact ⟨read, closed, literals,
    (bounds _ _ _ 6 read closed literals (by rw [six]; rfl)).2.2,
    (exact _ 3 (by rw [three]; rfl)).2.2.symm⟩

end Node

end TextTemplate
