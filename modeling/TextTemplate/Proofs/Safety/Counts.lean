import Mathlib.Algebra.Ring.Nat
import TextTemplate.Proofs.Count.Questions
import TextTemplate.Proofs.Safety.Renderings

/-!
# Counts that check every step

The sums and products of a count that may not fit are faults of the count.  All other
arithmetic of it is checked here: the number of lengths, the factors of a binomial coefficient
and the divisions by its steps, and the characters placed so far.
-/

namespace TextTemplate

namespace Guarded

open Attempt

/-! ## Strings over a set -/

/-- How many strings over `base` members have a length from `low` to `high`. -/
def countStrings (base low high : Nat) : Guarded Counted :=
  match base with
  | 1 => do
      let range ← sub high low
      let lengths ← add doubleWordSize range 1
      return .ok lengths
  | base => return TextTemplate.countStrings base low high

theorem countStrings_eq_ok (base : Nat) {repetition : Repetition} (ordered : repetition.IsOrdered) :
    countStrings base repetition.low repetition.high =
      .ok (TextTemplate.countStrings base repetition.low repetition.high) := by
  unfold countStrings
  split
  · have fits : repetition.high - repetition.low + 1 < doubleWordSize :=
      Nat.lt_of_le_of_lt ordered.sub_lt_wordSize (by decide)
    rw [sub_eq_ok ordered.low_le_high, ok_bind, add_eq_ok fits, ok_bind]
    rfl
  · rfl

/-! ## Arrangements -/

/-- Goes on with a binomial coefficient for `smaller` out of `places` at a step. -/
def binomialFrom (places smaller step : Nat) : (steps result : Nat) → Guarded Counted
  | 0, result => return .ok result
  | steps + 1, result => do
      let others ← sub places smaller
      let factor ← add doubleWordSize others step
      match Counted.mul result factor with
      | .error fault => return .error fault
      | .ok product => do
          let quotient ← div product step
          binomialFrom places smaller (step + 1) steps quotient

/-- How many ways there are to choose `chosen` places out of `places`. -/
def binomial (places chosen : Nat) : Guarded Counted := do
  let others ← sub places chosen
  let smaller := min chosen others
  binomialFrom places smaller 1 smaller 1

/-- Goes on with a multinomial coefficient when `placed` characters have their places. -/
def multinomialFrom (placed total : Nat) : List Nat → Guarded Counted
  | [] => return .ok total
  | size :: rest => do
      let placed ← add doubleWordSize placed size
      match ← binomial placed size with
      | .error fault => return .error fault
      | .ok ways =>
          match Counted.mul total ways with
          | .error fault => return .error fault
          | .ok total => multinomialFrom placed total rest

/-- The lengths of the runs of equal characters, the latest of which begins at `start`. -/
def runLengthsFrom (characters : Array Char) (start position : Nat) :
    (remaining : Nat) → Guarded (List Nat)
  | 0 => do
      let size ← sub position start
      return [size]
  | remaining + 1 => do
      let here ← item characters position
      let current ← item characters start
      let next ← behind characters position
      if here = current then runLengthsFrom characters start next remaining
      else do
        let size ← sub position start
        let others ← runLengthsFrom characters position next remaining
        return size :: others

/-- The lengths of the runs of equal characters. -/
def runLengths (characters : Array Char) : Guarded (List Nat) :=
  match characters.size with
  | 0 => return []
  | remaining + 1 => do
      let next ← behind characters 0
      runLengthsFrom characters 0 next remaining

/-- How many distinct arrangements the characters of a text have. -/
def countArrangements (text : List Char) : Guarded Counted := do
  let sizes ← runLengths (text.mergeSort (· ≤ ·)).toArray
  multinomialFrom 0 1 sizes

section Arrangements

theorem binomialFrom_eq_ok {places smaller step steps : Nat} (apart : smaller ≤ places)
    (room : places < doubleWordSize) (positive : 0 < step) (upTo : step + steps = smaller + 1)
    (result : Nat) :
    binomialFrom places smaller step steps result =
      .ok (Arrangements.binomialFrom (places - smaller) step steps result) := by
  induction steps generalizing step result with
  | zero => rfl
  | succ steps ih =>
      rw [binomialFrom, Arrangements.binomialFrom, sub_eq_ok apart, ok_bind,
        add_eq_ok (by omega), ok_bind]
      cases Counted.mul result (places - smaller + step) with
      | error fault => rfl
      | ok product =>
          dsimp only
          rw [div_eq_ok positive, ok_bind]
          exact ih (Nat.succ_pos _) (by omega) _

theorem binomial_eq_ok {places chosen : Nat} (apart : chosen ≤ places)
    (room : places < doubleWordSize) :
    binomial places chosen = .ok (Arrangements.binomial places chosen) := by
  rw [binomial, sub_eq_ok apart, ok_bind]
  exact binomialFrom_eq_ok (by omega) room (by decide) (Nat.add_comm _ _) 1

theorem multinomialFrom_eq_ok {placed : Nat} {sizes : List Nat}
    (room : placed + sizes.sum < doubleWordSize) (total : Nat) :
    multinomialFrom placed total sizes = .ok (Arrangements.multinomialFrom placed total sizes) := by
  induction sizes generalizing placed total with
  | nil => rfl
  | cons size rest ih =>
      rw [List.sum_cons] at room
      have fits : placed + size < doubleWordSize := by omega
      rw [multinomialFrom, Arrangements.multinomialFrom, add_eq_ok fits, ok_bind,
        binomial_eq_ok (Nat.le_add_left _ _) fits, ok_bind]
      cases Arrangements.binomial (placed + size) size with
      | error fault => rfl
      | ok ways =>
          dsimp only
          cases Counted.mul total ways with
          | error fault => rfl
          | ok total => exact ih (by omega) total

theorem runLengthsFrom_eq_ok {characters : Array Char} {start position remaining : Nat}
    {current : Char} (begins : characters[start]? = some current) (later : start ≤ position)
    (whole : position + remaining = characters.size) :
    runLengthsFrom characters start position remaining =
      .ok (Arrangements.runLengthsFrom current (position - start)
        (characters.toList.drop position)) := by
  induction remaining generalizing start position current with
  | zero =>
      have ended : characters.toList.drop position = [] :=
        List.drop_eq_nil_of_le (by rw [Array.length_toList]; omega)
      rw [runLengthsFrom, sub_eq_ok later, ok_bind, ended]
      rfl
  | succ remaining ih =>
      obtain ⟨inside, rfl⟩ := Array.getElem?_eq_some_iff.mp begins
      have here : position < characters.size := by omega
      have goesOn : characters.toList.drop position =
          characters[position] :: characters.toList.drop (position + 1) :=
        List.drop_eq_getElem_cons (by rwa [Array.length_toList])
      rw [runLengthsFrom, item_eq_ok here, ok_bind, item_eq_ok inside, ok_bind, behind_eq_ok here,
        ok_bind, goesOn, Arrangements.runLengthsFrom]
      split
      · rw [ih begins (by omega) (by omega), Nat.succ_sub later]
      · rw [sub_eq_ok later, ok_bind,
          ih (Array.getElem?_eq_getElem here) (Nat.le_add_right position 1) (by omega), ok_bind,
          Nat.add_sub_cancel_left]
        rfl

theorem runLengths_eq_ok (characters : List Char) :
    runLengths characters.toArray = .ok (Arrangements.runLengths characters) := by
  cases characters with
  | nil => rfl
  | cons first rest =>
      have counted : runLengthsFrom (first :: rest).toArray 0 1 rest.length =
          .ok (Arrangements.runLengthsFrom first 1 rest) :=
        runLengthsFrom_eq_ok rfl (Nat.zero_le 1) (Nat.add_comm 1 rest.length)
      exact counted

theorem sum_runLengthsFrom (current : Char) (size : Nat) (rest : List Char) :
    (Arrangements.runLengthsFrom current size rest).sum = size + rest.length := by
  induction rest generalizing current size with
  | nil => rfl
  | cons next rest ih =>
      rw [Arrangements.runLengthsFrom]
      split
      · rw [ih, List.length_cons]
        omega
      · rw [List.sum_cons, ih, List.length_cons]
        omega

/-- Every character is in one of the groups. -/
theorem sum_groupSizes (text : List Char) : (Arrangements.groupSizes text).sum = text.length := by
  rw [← List.length_mergeSort text, Arrangements.groupSizes]
  cases text.mergeSort (· ≤ ·) with
  | nil => rfl
  | cons first rest =>
      rw [Arrangements.runLengths, sum_runLengthsFrom, List.length_cons, Nat.add_comm]

theorem countArrangements_eq_ok {text : List Char} (room : text.length < doubleWordSize) :
    countArrangements text = .ok (TextTemplate.countArrangements text) := by
  have sizes : 0 + (Arrangements.groupSizes text).sum < doubleWordSize := by
    rwa [Nat.zero_add, sum_groupSizes]
  rw [countArrangements, runLengths_eq_ok, ok_bind]
  exact multinomialFrom_eq_ok sizes 1

end Arrangements

/-! ## Trees -/

variable {σ : Type} (pick : Nat → σ → Nat × σ)

mutual

/-- The number of outcomes of a tree. -/
def count : Node → Attempt σ Counted
  | .literal _ => return .ok 1
  | .characterSet members repetition =>
      liftM (countStrings members.length repetition.low repetition.high)
  | .sequence children => countAll Counted.mul 1 children
  | .alternation operands => countAll Counted.add 0 operands
  | .permutation operands =>
      match Node.operandFault? operands with
      | some fault => return .error fault
      | none => do
          let sample ← renderBehind pick [] operands
          countArrangements sample
  | .reference name => return .error (.reference name)

/-- Combines the counts of some trees with the result so far. -/
def countAll (combine : Nat → Nat → Counted) (result : Nat) : List Node → Attempt σ Counted
  | [] => return .ok result
  | node :: rest => do
      match ← count node with
      | .error fault => return .error fault
      | .ok outcomes =>
          match combine result outcomes with
          | .error fault => return .error fault
          | .ok result => countAll combine result rest

end

section Samples

variable {pick} {provider : Provider σ}

theorem length_drawMembers_le (members : Array Char) (count : Nat) (drawn : List Char)
    (session : Session σ) :
    (session.follow provider (TextTemplate.drawMembers members count drawn)).1.length ≤
      drawn.length + count := by
  induction count generalizing drawn session with
  | zero => exact Nat.le_of_eq (by simp [TextTemplate.drawMembers, Session.follow])
  | succ count ih =>
      refine Nat.le_trans (ih _ _) ?_
      split
      · rw [List.length_cons]
        omega
      · omega

/-- A literal or a set makes texts of a word's length. -/
theorem length_follow_lt_wordSize (below : Pick.StaysBelow pick) {name : String} {node : Node}
    (flat : node.IsFlat) (ordered : node.RepeatsInOrder) (storable : node.HoldsWords)
    (session : Session σ) :
    (session.follow (Provider.ofIndex pick name) node.render).1.length < wordSize := by
  cases node with
  | literal text => exact storable
  | characterSet members repetition =>
      rw [Node.render, Node.renderSet]
      split
      · exact Nat.two_pow_pos 64
      · rw [Session.follow_bind]
        refine Nat.lt_of_le_of_lt (length_drawMembers_le _ _ _ _) ?_
        rw [List.length_nil, Nat.zero_add]
        cases repetition with
        | exactly count => exact storable.2
        | between low high => exact integerWith_lt_wordSize below ordered.1 ordered.2 _
  | _ => cases flat

theorem length_concatBehind_le {recipes : List (Recipe (List Char))} {longest : Nat}
    (each : ∀ recipe ∈ recipes, ∀ session,
      (Session.follow provider recipe session).1.length ≤ longest)
    (earlier : List Char) (session : Session σ) :
    (session.follow provider (Recipe.concatBehind earlier recipes)).1.length ≤
      earlier.length + recipes.length * longest := by
  induction recipes generalizing earlier session with
  | nil => exact Nat.le_of_eq (by simp [Recipe.concatBehind, Session.follow])
  | cons first rest ih =>
      obtain ⟨one, others⟩ := List.forall_mem_cons.mp each
      rw [Recipe.concatBehind, Session.follow_bind]
      refine Nat.le_trans (ih others _ _) ?_
      rw [List.reverseAux_eq, List.length_append, List.length_reverse, List.length_cons,
        Nat.succ_mul]
      have text := one session
      omega

/-- A sample of flat operands is no longer than a double word can count. -/
theorem length_sample_lt_doubleWordSize (below : Pick.StaysBelow pick) {name : String}
    {operands : List Node} (flat : ∀ operand ∈ operands, operand.IsFlat)
    (ordered : (Node.permutation operands).IsOrdered)
    (storable : (Node.permutation operands).IsStorable) (session : Session σ) :
    (session.follow (Provider.ofIndex pick name)
      (Recipe.concat (Node.renderEach operands))).1.length < doubleWordSize := by
  have inOrder := (Node.every_iff.mp ordered).2
  obtain ⟨number, held⟩ := Node.every_iff.mp storable
  have each : ∀ recipe ∈ Node.renderEach operands, ∀ session : Session σ,
      (session.follow (Provider.ofIndex pick name) recipe).1.length ≤ wordSize - 1 := by
    rw [Node.renderEach_eq_map, List.forall_mem_map]
    intro operand member session
    exact Nat.le_sub_one_of_lt (length_follow_lt_wordSize below (flat operand member)
      (Node.every_iff.mp (inOrder operand member)).1
      (Node.every_iff.mp (held operand member)).1 session)
  refine Nat.lt_of_le_of_lt (length_concatBehind_le each [] session) ?_
  rw [Node.renderEach_eq_map, List.length_map, List.length_nil, Nat.zero_add]
  refine Nat.lt_of_le_of_lt (Nat.mul_le_mul_right _ (Nat.le_sub_one_of_lt number)) ?_
  simp [wordSize, doubleWordSize]

end Samples

section Follows

variable {pick} {name : String}

theorem countAll_follows {combine : Nat → Nat → Counted}
    {countEach : Nat → List Node → Recipe Counted} (joins : Node.JoinsCounts combine countEach)
    {nodes : List Node}
    (each : ∀ node ∈ nodes, Follows (Provider.ofIndex pick name) (count pick node) node.count)
    (result : Nat) :
    Follows (Provider.ofIndex pick name) (countAll pick combine result nodes)
      (countEach result nodes) := by
  induction nodes generalizing result with
  | nil =>
      rw [joins.nil]
      exact follows_pure _
  | cons node rest ih =>
      obtain ⟨first, others⟩ := List.forall_mem_cons.mp each
      rw [joins.cons]
      refine first.bind fun counted => ?_
      cases counted with
      | error fault => exact follows_pure _
      | ok outcomes =>
          dsimp only
          cases combine result outcomes with
          | error fault => exact follows_pure _
          | ok result => exact ih others result

/-- A storable ordered tree is counted without a breakdown, and just as by its recipe. -/
theorem count_follows (below : Pick.StaysBelow pick) {tree : Node} (ordered : tree.IsOrdered)
    (storable : tree.IsStorable) :
    Follows (Provider.ofIndex pick name) (count pick tree) tree.count := by
  induction tree using Node.treeInduction with
  | step tree ih =>
      obtain ⟨root, inside⟩ := Node.every_iff.mp ordered
      have held := (Node.every_iff.mp storable).2
      have each : ∀ node ∈ tree.subnodes,
          Follows (Provider.ofIndex pick name) (count pick node) node.count :=
        fun node member => ih node member (inside node member) (held node member)
      cases tree with
      | literal text => exact follows_pure _
      | characterSet members repetition =>
          rw [count, countStrings_eq_ok _ root]
          exact follows_ok _
      | sequence children => exact countAll_follows Node.countProduct_joinsCounts each 1
      | alternation operands => exact countAll_follows Node.countSum_joinsCounts each 0
      | permutation operands =>
          rw [count, Node.count]
          cases fault : Node.operandFault? operands with
          | some fault => exact follows_pure _
          | none =>
              have flat := Node.operandFault?_eq_none_iff.mp fault
              have sample : Follows (Provider.ofIndex pick name) (renderBehind pick [] operands)
                  (Recipe.concat (Node.renderEach operands)) :=
                renderBehind_follows
                  (fun node member => render_follows below (inside node member)) []
              refine sample.bind_of_follow fun session => ?_
              rw [countArrangements_eq_ok
                (length_sample_lt_doubleWordSize below flat ordered storable session)]
              exact follows_ok _
      | reference name => exact follows_pure _

end Follows

end Guarded

end TextTemplate
