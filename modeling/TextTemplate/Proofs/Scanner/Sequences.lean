import TextTemplate.Proofs.Pattern.Acceptance
import TextTemplate.Proofs.Scanner.Leaves

/-!
# Scanning sequences

The loop over a sequence does with the cursor what the run of the open groups does with the rest
of the pattern.  A group is scanned by a loop of its own, and it is left at the parenthesis that
closes it.
-/

namespace TextTemplate

open Cursor Reading

variable {limits : Limits} {pattern text rest after written : List Char} {first : Char}
  {tokens : List Token} {depth : Nat}

/-! ## Writings in front of a rest -/

/-- Some text writes tokens wherever it is not followed by more literal text. -/
def WritesInFront (limits : Limits) (written : List Char) (tokens : List Token) : Prop :=
  ∀ behind more, EndsLiteral behind → WritesTokens limits behind more →
    WritesTokens limits (written ++ behind) (tokens ++ more)

namespace WritesInFront

theorem nil : WritesInFront limits [] [] := fun _ _ _ more => more

theorem writesTokens (inFront : WritesInFront limits written tokens) :
    WritesTokens limits written tokens := by
  simpa using inFront [] [] endsLiteral_nil .nil

/-- A parenthesis ends literal text, so what stands behind a group has no say in what is inside. -/
theorem group (inner : WritesInFront limits written tokens) {behind : List Char}
    {more : List Token} (outer : WritesInFront limits behind more) :
    WritesInFront limits ('(' :: written ++ ')' :: behind)
      (.openGroup :: tokens ++ .closeGroup :: more) := by
  intro others later ends writes
  have closed := inner _ _ (endsLiteral_cons_iff.mpr rfl) (.closeGroup (outer _ _ ends writes))
  simpa using WritesTokens.openGroup closed

/-- A token that was read, and the tokens of some text behind it. -/
theorem ofToken {token : Token} {tail : List Char}
    (reads : readToken limits first rest = .ok (token, written ++ tail))
    (inFront : WritesInFront limits written tokens) :
    ∃ front, first :: rest = front ++ (written ++ tail) ∧
      WritesInFront limits (front ++ written) (token :: tokens) := by
  obtain ⟨front, same, writes⟩ := exists_front_of_readToken reads
  refine ⟨front, same, fun behind more ends later => ?_⟩
  rw [List.append_assoc]
  refine writes _ _ ?_ (inFront _ _ ends later)
  intro endsHere
  cases written with
  | nil => exact ends
  | cons next others => exact endsLiteral_cons_iff.mpr (endsLiteral_cons_iff.mp endsHere)

end WritesInFront

/-! ## Rounds -/

namespace Scan

/-- What the round of a sequence makes of the token that is read. -/
theorem sequenceRound_before (limits : Limits) (depth : Nat) (group : Cursor → Scan Node)
    (chain : Chain) (within : first :: rest <:+ pattern) :
    sequenceRound limits depth group chain (.before pattern (first :: rest)) =
      match readToken limits first rest with
      | .error failure => .error (failure.stop pattern)
      | .ok (.leaf node, after) => .ok (.again (chain.push node), .before pattern after)
      | .ok (.openGroup, after) => pushItem chain (group (.before pattern after))
      | .ok (.closeGroup, after) =>
          if depth = 0 then refuse .extraClosing (.before pattern after)
          else .ok (.done (chain, true), .before pattern after)
      | .ok (.operator operator, after) => joinOperator chain operator (.before pattern after) := by
  have behind := (List.suffix_cons first rest).trans within
  rw [sequenceRound, advance_before within, current?_before within]
  split
  · next impossible => cases impossible
  · next same =>
      cases same
      rw [next?_before behind]
      by_cases braced : rest.head? = some '\x7b'
      · obtain ⟨name, rfl⟩ := List.head?_eq_some_iff.mp braced
        rw [if_pos braced, reference_before behind]
        simp only [readToken]
        rcases readReference name with failure | ⟨name, after⟩ <;> rfl
      · rw [if_neg braced, readToken_stray rfl (by simp) fun _ => braced]
        exact congrArg Except.error (Failure.stop_cons _ within).symm
  · next same =>
      cases same
      rw [characterSet_before behind]
      simp only [readToken]
      rcases readCharacterSet limits rest with failure | ⟨node, after⟩ <;> rfl
  · next same =>
      cases same
      rfl
  · next same =>
      cases same
      rfl
  · next same =>
      cases same
      rfl
  · next same =>
      cases same
      rfl
  · next noSource noSet noGroup noClosing noChoice noShuffle same =>
      cases same
      split
      · next structural =>
          rw [readToken_stray structural (by simp_all) fun dollar => (noSource dollar).elim]
          exact congrArg Except.error (Failure.stop_cons _ within).symm
      · next ordinary =>
          rw [Bool.not_eq_true] at ordinary
          rw [literal_before ordinary within, readToken_of_ordinary limits rest ordinary]
          rcases readLiteral (first :: rest) with failure | ⟨text, after⟩ <;> rfl

/-! ## Loops over sequences -/

/-- All that the rest of a pattern leads to is what another rest leads to with another chain. -/
def GoesOn (limits : Limits) (depth : Nat) (chain : Chain) (text : List Char) (later : Chain)
    (after : List Char) : Prop :=
  ∀ enclosing : List Chain, enclosing.length = depth →
    readTree limits ⟨chain, enclosing⟩ text = readTree limits ⟨later, enclosing⟩ after

/-- What the loop over a sequence may come to, from a chain and the rest of a pattern. -/
inductive SequenceEnd (limits : Limits) (pattern : List Char) (depth : Nat) (chain : Chain)
    (text : List Char) : Scan (Chain × Bool) → Prop where
  /-- The sequence is a group, and its parenthesis is behind some of the text. -/
  | closed {later : Chain} {written after : List Char} {tokens : List Token} (inside : 0 < depth)
      (same : text = written ++ ')' :: after) (writes : WritesInFront limits written tokens)
      (reads : ∀ before, chain.Reads limits depth before →
        later.Reads limits depth (before ++ tokens))
      (goesOn : GoesOn limits depth chain text later (')' :: after)) :
      SequenceEnd limits pattern depth chain text (.ok ((later, true), .before pattern after))
  /-- The pattern ends. -/
  | ended {later : Chain} (goesOn : GoesOn limits depth chain text later []) :
      SequenceEnd limits pattern depth chain text
        (.ok ((later, false), (Cursor.before pattern []).advance))
  | failed (failure : Failure)
      (fails : ∀ enclosing : List Chain, enclosing.length = depth →
        readTree limits ⟨chain, enclosing⟩ text = .error failure) :
      SequenceEnd limits pattern depth chain text (.error (failure.stop pattern))

/-- What the scan of a group may come to, from the rest of a pattern behind its parenthesis. -/
inductive GroupEnd (limits : Limits) (pattern : List Char) (depth : Nat) (text : List Char) :
    Scan Node → Prop where
  | closed {written after : List Char} {tokens : List Token} {nodes : List Node}
      (allowed : depth < limits.maxDepth) (same : text = written ++ ')' :: after)
      (writes : WritesInFront limits written tokens)
      (derives : SequenceTokens limits (depth + 1) tokens nodes)
      (goesOn : ∀ chain,
        GoesOn limits depth chain ('(' :: text) (chain.push (.sequence nodes)) after) :
      GroupEnd limits pattern depth text (.ok (.sequence nodes, .before pattern after))
  | failed (failure : Failure)
      (fails : ∀ chain, ∀ enclosing : List Chain, enclosing.length = depth →
        readTree limits ⟨chain, enclosing⟩ ('(' :: text) = .error failure) :
      GroupEnd limits pattern depth text (.error (failure.stop pattern))

/-- What a loop comes to after a round is what it comes to before it. -/
theorem SequenceEnd.behind {chain later : Chain} {taken : List Token}
    {outcome : Scan (Chain × Bool)}
    (ends : SequenceEnd limits pattern depth later after outcome)
    (writes : ∀ written tokens tail, after = written ++ tail → WritesInFront limits written tokens →
      ∃ front, text = front ++ (written ++ tail) ∧
        WritesInFront limits (front ++ written) (taken ++ tokens))
    (reads : ∀ before, chain.Reads limits depth before → later.Reads limits depth (before ++ taken))
    (goesOn : GoesOn limits depth chain text later after) :
    SequenceEnd limits pattern depth chain text outcome := by
  cases ends with
  | @closed last written rest tokens inside same inFront leads further =>
      obtain ⟨front, whole, together⟩ := writes written tokens (')' :: rest) same inFront
      refine .closed inside (by rw [whole, List.append_assoc]) together ?_ ?_
      · intro before led
        rw [← List.append_assoc]
        exact leads _ (reads before led)
      · exact fun enclosing deep => (goesOn enclosing deep).trans (further enclosing deep)
  | ended further =>
      exact .ended fun enclosing deep => (goesOn enclosing deep).trans (further enclosing deep)
  | failed failure fails =>
      exact .failed _ fun enclosing deep => (goesOn enclosing deep).trans (fails enclosing deep)

/-- A token that only changes the chain is taken by one round. -/
theorem SequenceEnd.token {chain later : Chain} {token : Token} {outcome : Scan (Chain × Bool)}
    (ends : SequenceEnd limits pattern depth later after outcome)
    (read : readToken limits first rest = .ok (token, after))
    (takes : ∀ enclosing, Nesting.take limits ⟨chain, enclosing⟩ token = .ok ⟨later, enclosing⟩)
    (reads : ∀ before, chain.Reads limits depth before →
      later.Reads limits depth (before ++ [token])) :
    SequenceEnd limits pattern depth chain (first :: rest) outcome := by
  refine ends.behind ?_ reads fun enclosing _ => ?_
  · rintro written tokens tail rfl inFront
    exact inFront.ofToken read
  · rw [readTree_cons, read]
    simp only [takes]

/-- A group is taken by one round. -/
theorem SequenceEnd.group {chain : Chain} {nodes : List Node} {inner : List Char}
    {outcome : Scan (Chain × Bool)}
    (ends : SequenceEnd limits pattern depth (chain.push (.sequence nodes)) after outcome)
    (allowed : depth < limits.maxDepth) (writes : WritesInFront limits inner tokens)
    (derives : SequenceTokens limits (depth + 1) tokens nodes)
    (goesOn : GoesOn limits depth chain ('(' :: inner ++ ')' :: after)
      (chain.push (.sequence nodes)) after) :
    SequenceEnd limits pattern depth chain ('(' :: inner ++ ')' :: after) outcome := by
  refine ends.behind ?_ (fun before led => led.push (.group allowed derives)) goesOn
  rintro written more tail rfl inFront
  refine ⟨'(' :: inner ++ [')'], by simp, ?_⟩
  simpa using writes.group inFront

/-- What one round of a sequence may come to: another round behind some of the text, or the end. -/
inductive RoundEnd (limits : Limits) (pattern : List Char) (depth : Nat) (chain : Chain)
    (text : List Char) : Scan (Round Chain (Chain × Bool)) → Prop where
  | again {later : Chain} {after : List Char} (behind : after <:+ pattern)
      (shorter : after.length < text.length)
      (further : ∀ outcome, SequenceEnd limits pattern depth later after outcome →
        SequenceEnd limits pattern depth chain text outcome) :
      RoundEnd limits pattern depth chain text (.ok (.again later, .before pattern after))
  | done {value : Chain × Bool} {place : Cursor}
      (ends : SequenceEnd limits pattern depth chain text (.ok (value, place))) :
      RoundEnd limits pattern depth chain text (.ok (.done value, place))
  | stopped {stop : Stop}
      (ends : SequenceEnd limits pattern depth chain text (.error stop)) :
      RoundEnd limits pattern depth chain text (.error stop)

/-- A group is pushed behind the chain, if it has no fault. -/
theorem RoundEnd.group {chain : Chain} {item : Scan Node} (within : '(' :: text <:+ pattern)
    (scanned : GroupEnd limits pattern depth text item) :
    RoundEnd limits pattern depth chain ('(' :: text) (pushItem chain item) := by
  cases scanned with
  | failed failure fails => exact .stopped (.failed failure (fails chain))
  | @closed inner after tokens nodes allowed same writes derives goesOn =>
      subst same
      have behind : after <:+ pattern := .trans ⟨'(' :: inner ++ [')'], by simp⟩ within
      refine .again behind ?_ fun outcome ends => ends.group allowed writes derives (goesOn chain)
      simp only [List.length_cons, List.length_append]
      omega

/-- An operator joins the chain, if one can stand there. -/
theorem RoundEnd.operator {chain : Chain} {operator : Operator}
    (within : first :: rest <:+ pattern)
    (read : readToken limits first rest = .ok (.operator operator, rest)) :
    RoundEnd limits pattern depth chain (first :: rest)
      (joinOperator chain operator (.before pattern rest)) := by
  unfold joinOperator
  cases joins : chain.join operator with
  | error fault =>
      simp only [refuse]
      rw [← Failure.stop_cons fault within]
      refine .stopped (.failed _ fun enclosing _ => ?_)
      rw [readTree_cons, read]
      simp only [Nesting.take, joins, Except.map]
  | ok later =>
      have behind := (List.suffix_cons first rest).trans within
      refine .again behind (Nat.lt_succ_self _) fun outcome ends => ?_
      refine ends.token read (fun _ => ?_) fun before led => led.join joins
      simp only [Nesting.take, joins, Except.map]

/-- A closing parenthesis ends the sequence of a group, and can stand nowhere else. -/
theorem RoundEnd.closeGroup {chain : Chain} (within : ')' :: rest <:+ pattern) :
    RoundEnd limits pattern depth chain (')' :: rest)
      (if depth = 0 then refuse .extraClosing (.before pattern rest)
        else .ok (.done (chain, true), .before pattern rest)) := by
  split
  · next outside =>
      rw [refuse, ← Failure.stop_cons _ within]
      refine .stopped (.failed _ fun enclosing deep => ?_)
      obtain rfl := List.eq_nil_of_length_eq_zero (deep.trans outside)
      rw [readTree_cons]
      rfl
  · next inside =>
      refine .done (.closed (Nat.pos_of_ne_zero inside) rfl .nil ?_ fun _ _ => rfl)
      intro before led
      rwa [List.append_nil]

/-- One round of a sequence, given how the groups in it are scanned. -/
theorem sequenceRound_roundEnd {group : Cursor → Scan Node}
    (groups : ∀ text, '(' :: text <:+ pattern →
      GroupEnd limits pattern depth text (group (.before pattern text)))
    (chain : Chain) (within : first :: rest <:+ pattern) :
    RoundEnd limits pattern depth chain (first :: rest)
      (sequenceRound limits depth group chain (.before pattern (first :: rest))) := by
  rw [sequenceRound_before _ _ _ _ within]
  cases read : readToken limits first rest with
  | error failure =>
      refine .stopped (.failed failure fun enclosing _ => ?_)
      rw [readTree_cons, read]
  | ok pair =>
      rcases pair with ⟨token, after⟩
      rcases leaf_or_single_of_readToken read with
        ⟨node, rfl⟩ | ⟨rfl, ⟨rfl, rfl⟩ | ⟨rfl, rfl⟩ | ⟨operator, rfl, -⟩⟩
      · obtain ⟨front, same, -⟩ := exists_front_of_readToken read
        have shorter := Nat.lt_succ_of_le (readToken_leaves limits first rest _ after read)
        refine .again (.trans ⟨front, same.symm⟩ within) shorter fun outcome ends => ?_
        exact ends.token read (fun _ => rfl) fun before led => led.push (.leaf node)
      · exact .group within (groups rest within)
      · exact .closeGroup within
      · exact .operator within read

/-- The loop over a sequence, given how the groups in it are scanned. -/
theorem rounds_sequenceRound {group : Cursor → Scan Node}
    (groups : ∀ text, '(' :: text <:+ pattern →
      GroupEnd limits pattern depth text (group (.before pattern text)))
    (chain : Chain) (within : text <:+ pattern) :
    SequenceEnd limits pattern depth chain text
      (rounds (sequenceRound limits depth group) chain (.before pattern text)) := by
  induction size : text.length using Nat.strongRecOn generalizing chain text with
  | ind size ih =>
  subst size
  cases text with
  | nil =>
      have ended : sequenceRound limits depth group chain (.before pattern []) =
          .ok (.done (chain, false), (Cursor.before pattern []).advance) := by
        rw [sequenceRound, current?_advance_before within]
        rfl
      rw [rounds_done ended]
      exact .ended fun _ _ => rfl
  | cons first rest =>
      have step := sequenceRound_roundEnd groups chain within
      generalize round : sequenceRound limits depth group chain _ = outcome at step
      cases step with
      | again behind shorter further =>
          rw [rounds_again round (unread_lt_unread within behind shorter)]
          exact further _ (ih _ shorter _ behind rfl)
      | done ends =>
          rw [rounds_done round]
          exact ends
      | stopped ends =>
          rw [rounds_error round]
          exact ends

/-! ## Groups and patterns -/

theorem readTree_openGroup {chain : Chain} {enclosing : List Chain}
    (room : enclosing.length < limits.maxDepth) (text : List Char) :
    readTree limits ⟨chain, enclosing⟩ ('(' :: text) =
      readTree limits ⟨.empty, chain :: enclosing⟩ text := by
  rw [readTree_cons]
  simp only [readToken, Nesting.take, room, if_true]

/-- What the loop of a group comes to decides what its scan comes to. -/
theorem SequenceEnd.groupEnd {outcome : Scan (Chain × Bool)} (allowed : depth < limits.maxDepth)
    (loop : SequenceEnd limits pattern (depth + 1) .empty text outcome)
    (within : '(' :: text <:+ pattern) :
    GroupEnd limits pattern depth text
      (outcome.bind fun ((chain, isClosed), after) =>
        endSequence (depth + 1) chain isClosed after) := by
  have deeper {chain : Chain} {enclosing : List Chain} (deep : enclosing.length = depth) :
      (chain :: enclosing).length = depth + 1 := congrArg Nat.succ deep
  -- For the rest of the pattern, the loop of a group runs with one more chain around it.
  have opens {chain later : Chain} {after : List Char}
      (goesOn : GoesOn limits (depth + 1) .empty text later after) (enclosing : List Chain)
      (deep : enclosing.length = depth) :
      readTree limits ⟨chain, enclosing⟩ ('(' :: text) =
        readTree limits ⟨later, chain :: enclosing⟩ after := by
    rw [readTree_openGroup (deep ▸ allowed), goesOn _ (deeper deep)]
  cases loop with
  | @closed later written after tokens inside same writes reads goesOn =>
      have closing : ')' :: after <:+ pattern :=
        .trans ⟨written, same.symm⟩ (.trans (List.suffix_cons '(' _) within)
      simp only [Except.bind, endSequence]
      cases finishes : later.finish with
      | error fault =>
          simp only
          rw [refuse, ← Failure.stop_cons _ closing]
          refine .failed _ fun chain enclosing deep => ?_
          rw [opens goesOn enclosing deep, readTree_cons]
          simp only [readToken, Nesting.take, finishes, Except.map]
      | ok nodes =>
          simp only
          rw [if_neg (by simp)]
          have derives := (reads [] .empty).finish finishes
          refine .closed allowed same writes derives fun chain enclosing deep => ?_
          rw [opens goesOn enclosing deep, readTree_cons]
          simp only [readToken, Nesting.take, finishes, Except.map]
  | @ended later goesOn =>
      simp only [Except.bind, endSequence]
      cases finishes : later.finish with
      | error fault =>
          refine GroupEnd.failed ⟨fault, []⟩ fun chain enclosing deep => ?_
          rw [opens goesOn enclosing deep, readTree]
          simp only [Nesting.finish, finishes, Except.bind, Except.mapError]
      | ok nodes =>
          refine GroupEnd.failed ⟨.missingClosing, []⟩ fun chain enclosing deep => ?_
          rw [opens goesOn enclosing deep, readTree]
          simp only [Nesting.finish, finishes, Except.bind, Except.mapError]
          rfl
  | failed failure fails =>
      refine .failed _ fun chain enclosing deep => ?_
      rw [readTree_openGroup (deep ▸ allowed), fails _ (deeper deep)]

/-- A group is scanned up to the parenthesis that closes it. -/
theorem sequence_groupEnd (limits : Limits) (depth : Nat) {text : List Char}
    (within : '(' :: text <:+ pattern) :
    GroupEnd limits pattern depth text (sequence limits (depth + 1) (.before pattern text)) := by
  rw [sequence]
  split
  · next full =>
      rw [refuse, ← Failure.stop_cons _ within]
      refine .failed _ fun chain enclosing deep => ?_
      have noRoom : ¬ enclosing.length < limits.maxDepth := by omega
      rw [readTree_cons]
      simp only [readToken, Nesting.take, noRoom, if_false]
  · next allowed =>
      have groups (inner : List Char) (begins : '(' :: inner <:+ pattern) :=
        sequence_groupEnd limits (depth + 1) begins
      have loop := rounds_sequenceRound groups .empty (.trans (List.suffix_cons '(' _) within)
      exact loop.groupEnd (by omega) within
termination_by limits.maxDepth - depth

/-- Outside all groups the scan comes to what the pattern is read to. -/
theorem scan_eq_readTree (limits : Limits) (pattern : List Char) :
    scan limits pattern =
      match readTree limits .root pattern with
      | .error failure => .error (failure.stop pattern)
      | .ok tree => .ok (tree, (Cursor.before pattern []).advance) := by
  have groups (inner : List Char) (begins : '(' :: inner <:+ pattern) :=
    sequence_groupEnd limits 0 begins
  have loop := rounds_sequenceRound groups .empty (List.suffix_refl pattern)
  rw [scan, ofText_eq_before, sequence, if_neg (Nat.not_lt_zero _)]
  simp only
  generalize rounds (sequenceRound limits 0 _) _ _ = outcome at loop ⊢
  cases loop with
  | closed inside => exact absurd inside (Nat.lt_irrefl 0)
  | @ended later goesOn =>
      rw [Nesting.root, goesOn [] rfl, readTree]
      simp only [Except.bind, endSequence, Nesting.finish]
      cases later.finish <;> rfl
  | failed failure fails =>
      rw [Nesting.root, fails [] rfl]
      rfl

end Scan

end TextTemplate
