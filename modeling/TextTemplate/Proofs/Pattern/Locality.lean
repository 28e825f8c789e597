import Mathlib.Data.List.Basic
import TextTemplate.Pattern.Parse
import TextTemplate.Proofs.Pattern.Writings

/-!
# Faults and the text behind them

Reading looks one character ahead at most.  Text that begins two characters behind the place
where a fault is noticed can therefore be exchanged: the same fault is noticed there again.
-/

namespace TextTemplate

variable {α β : Type}

/-! ## Rests that look the same -/

/-- Two rests that begin with the same two characters, or are the same shorter text. -/
def SameFront (rest other : List Char) : Prop := rest.take 2 = other.take 2

namespace SameFront

variable {rest other : List Char}

theorem append (same : SameFront rest other) (passed : List Char) :
    SameFront (passed ++ rest) (passed ++ other) := by
  unfold SameFront at same ⊢
  have shorter : rest.take (2 - passed.length) = other.take (2 - passed.length) := by
    have cut := congrArg (List.take (2 - passed.length)) same
    simpa only [List.take_take, Nat.min_eq_left (Nat.sub_le 2 passed.length)] using cut
  rw [List.take_append, List.take_append, shorter]

theorem head?_eq (same : SameFront rest other) : other.head? = rest.head? := by
  have first := congrArg List.head? same
  simpa [List.head?_take] using first.symm

theorem exists_cons {first : Char} (same : SameFront (first :: rest) other) :
    ∃ behind, other = first :: behind ∧ behind.head? = rest.head? := by
  cases other with
  | nil => cases same
  | cons character behind =>
      obtain ⟨rfl, next⟩ := List.cons.inj same
      refine ⟨behind, rfl, ?_⟩
      have second := congrArg List.head? next
      simpa [List.head?_take] using second.symm

theorem eq_nil (same : SameFront [] other) : other = [] := by
  cases other with
  | nil => rfl
  | cons character behind => cases same

end SameFront

/-! ## Local readers -/

namespace Reading

/-- The text in front of which a reading stopped. -/
def rest : Reading α → List Char
  | .ok (_, after) => after
  | .error failure => failure.remaining

/-- The same outcome in front of another rest. -/
def withRest (reading : Reading α) (other : List Char) : Reading α :=
  match reading with
  | .ok (value, _) => .ok (value, other)
  | .error failure => .error ⟨failure.fault, other⟩

/-- A changed value leaves the rest as it is. -/
def mapValue (change : α → β) (reading : Reading α) : Reading β :=
  reading.map fun (value, after) => (change value, after)

theorem mapValue_id (reading : Reading α) : reading.mapValue id = reading := by
  cases reading <;> rfl

theorem rest_mapValue (change : α → β) (reading : Reading α) :
    (reading.mapValue change).rest = reading.rest := by
  cases reading <;> rfl

theorem withRest_mapValue (change : α → β) (reading : Reading α) (other : List Char) :
    (reading.mapValue change).withRest other = (reading.withRest other).mapValue change := by
  cases reading <;> rfl

theorem withRest_rest (reading : Reading α) : reading.withRest reading.rest = reading := by
  cases reading <;> rfl

end Reading

/--
A reader stops somewhere in a text, and it stops there with the same outcome when the rest is
exchanged for another one with the same front.
-/
def IsLocalAt (read : List Char → Reading α) (text : List Char) : Prop :=
  ∃ passed, text = passed ++ (read text).rest ∧
    ∀ other, SameFront (read text).rest other → read (passed ++ other) = (read text).withRest other

namespace IsLocalAt

variable {read : List Char → Reading β} {inner : List Char → Reading α}
  {text tail : List Char}

/-- No other text looks like an empty rest. -/
theorem of_end (atEnd : (read text).rest = []) : IsLocalAt read text := by
  refine ⟨text, by rw [atEnd, List.append_nil], ?_⟩
  intro other same
  rw [atEnd] at same
  obtain rfl := same.eq_nil
  rw [List.append_nil, ← atEnd, Reading.withRest_rest]

/-- It is enough to know the outcome in front of every rest with the same front. -/
theorem of_outcome (passed : List Char) (reading : Reading β)
    (again : ∀ other, SameFront reading.rest other →
      read (passed ++ other) = reading.withRest other) :
    IsLocalAt read (passed ++ reading.rest) := by
  have here := again reading.rest rfl
  rw [Reading.withRest_rest] at here
  refine ⟨passed, by rw [here], ?_⟩
  rw [here]
  exact again

/-- A fault that a character causes whatever stands behind it. -/
theorem of_fault {stop : Char} {after : List Char} (passed : List Char) (fault : SyntaxFault)
    (fails : ∀ behind, read (passed ++ stop :: behind) = .error ⟨fault, stop :: behind⟩) :
    IsLocalAt read (passed ++ stop :: after) := by
  refine .of_outcome passed (.error ⟨fault, stop :: after⟩) fun other same => ?_
  obtain ⟨behind, rfl, -⟩ := same.exists_cons
  exact fails behind

/-- A value that a character completes whatever stands behind it. -/
theorem of_value {stop : Char} {after : List Char} (passed : List Char) (value : β)
    (completes : ∀ behind, read (passed ++ stop :: behind) = .ok (value, behind)) :
    IsLocalAt read (passed ++ stop :: after) := by
  rw [List.append_cons]
  refine .of_outcome (passed ++ [stop]) (.ok (value, after)) fun other _ => ?_
  rw [← List.append_cons]
  exact completes other

/-- A reader that goes on with a local one behind some characters. -/
theorem behind (isLocal : IsLocalAt inner tail) (front : List Char) (change : α → β)
    (goesOn : ∀ other, SameFront tail other →
      read (front ++ other) = (inner other).mapValue change) :
    IsLocalAt read (front ++ tail) := by
  obtain ⟨passed, parts, again⟩ := isLocal
  have here := goesOn tail rfl
  refine ⟨front ++ passed, ?_, ?_⟩
  · rw [here, Reading.rest_mapValue, List.append_assoc, ← parts]
  · intro other same
    rw [here, Reading.rest_mapValue] at same
    have looks : SameFront tail (passed ++ other) := by
      rw [parts]
      exact same.append passed
    rw [List.append_assoc, goesOn _ looks, again other same, here, Reading.withRest_mapValue]

end IsLocalAt

/-! ## Literal text -/

theorem readLiteral_isLocal (text : List Char) : IsLocalAt readLiteral text := by
  fun_induction readLiteral text with
  | case1 => exact .of_end rfl
  | case2 => exact .of_end rfl
  | case3 escaped rest ih =>
      exact ih.behind ['\\', escaped] (escaped :: ·) fun other _ => by
        rw [List.cons_append, List.cons_append, List.nil_append, readLiteral]
        rfl
  | case4 character rest _ _ structural =>
      refine .of_outcome [] (.ok ([], character :: rest)) fun other same => ?_
      obtain ⟨behind, rfl, -⟩ := same.exists_cons
      exact readLiteral_complete .nil (endsLiteral_cons_iff.mpr structural)
  | case5 character rest alone escapes ordinary ih =>
      have unescaped := ne_backslash_of_cases alone escapes
      exact ih.behind [character] (character :: ·) fun other _ => by
        simp [readLiteral, unescaped, ordinary, Reading.mapValue]

/-! ## Runs of characters -/

/-- A run of characters is followed by the end of the text or by another character. -/
theorem dropWhile_eq_nil_or_exists_stop (holds : Char → Bool) (text : List Char) :
    text.dropWhile holds = [] ∨ ∃ run stop after, text = run ++ stop :: after ∧
      (∀ character ∈ run, holds character = true) ∧ holds stop = false := by
  cases stops : text.dropWhile holds with
  | nil => exact .inl rfl
  | cons stop after =>
      have nonempty : text.dropWhile holds ≠ [] := by simp [stops]
      have fails := List.head_dropWhile_not holds nonempty
      exact .inr ⟨text.takeWhile holds, stop, after, eq_takeWhile_append stops,
        List.all_eq_true.mp List.all_takeWhile, by simpa [stops] using fails⟩

theorem readReference_isLocal (text : List Char) : IsLocalAt readReference text := by
  rcases dropWhile_eq_nil_or_exists_stop (· != '\x7d') text with
    ended | ⟨name, stop, after, rfl, inName, stops⟩
  · apply IsLocalAt.of_end
    unfold readReference
    rw [ended]
    rfl
  · have run := readReference_run inName stops
    by_cases valid : isIdentifier name = true
    · exact .of_value name name fun behind => by rw [run, if_pos valid]
    · exact .of_fault name (.badIdentifier name) fun behind => by rw [run, if_neg valid]

/-! ## Quantifiers -/

namespace Quantifier

/-- Where a number stands does not matter for the number. -/
theorem exists_number (digits : List Char) :
    (∃ value, ∀ remaining, number digits remaining = .ok value) ∨
      ∃ fault, ∀ remaining, number digits remaining = .error ⟨fault, remaining⟩ := by
  unfold number
  by_cases fits : Nat.ofDigitChars 10 digits 0 < wordSize
  · exact .inl ⟨_, fun remaining => if_pos fits⟩
  · exact .inr ⟨_, fun remaining => if_neg fits⟩

theorem exists_upperBound (limits : Limits) (digits : List Char) :
    (∃ high, ∀ remaining, upperBound limits digits remaining = .ok high) ∨
      ∃ fault, ∀ remaining, upperBound limits digits remaining = .error ⟨fault, remaining⟩ := by
  unfold upperBound
  rcases exists_number digits with ⟨high, written⟩ | ⟨fault, tooLarge⟩
  · by_cases excess : limits.maxRepeat < high
    · exact .inr ⟨_, fun remaining => by rw [written, Except.bind, if_pos excess]⟩
    · exact .inl ⟨high, fun remaining => by rw [written, Except.bind, if_neg excess]⟩
  · exact .inr ⟨fault, fun remaining => by rw [tooLarge]; rfl⟩

theorem readUpper_isLocal (limits : Limits) (low : Nat) (text : List Char) :
    IsLocalAt (readUpper limits low) text := by
  rcases dropWhile_eq_nil_or_exists_stop Char.isDigit text with
    ended | ⟨digits, stop, after, rfl, inRun, stops⟩
  · apply IsLocalAt.of_end
    unfold readUpper
    rw [ended]
    rfl
  · have run := @readUpper_run limits low digits stop inRun stops
    by_cases closes : stop = '\x7d'
    · simp only [closes, if_pos] at run ⊢
      by_cases unnamed : digits.isEmpty = true
      · exact .of_fault digits .missingUpperBound fun behind => by rw [run, if_pos unnamed]
      · simp only [if_neg unnamed] at run
        rcases exists_upperBound limits digits with ⟨high, bounded⟩ | ⟨fault, refused⟩
        · by_cases reversed : high < low
          · exact .of_fault digits (.boundsReversed low high) fun behind => by
              rw [run, bounded, Except.bind, if_pos reversed]
          · exact .of_value digits (.between low high) fun behind => by
              rw [run, bounded, Except.bind, if_neg reversed]
        · exact .of_fault digits fault fun behind => by
            rw [run, refused]
            rfl
    · simp only [if_neg closes] at run
      by_cases separates : isSeparator stop = true
      · exact .of_fault digits .secondSeparator fun behind => by rw [run, if_pos separates]
      · exact .of_fault digits (.nonDigit stop) fun behind => by rw [run, if_neg separates]

end Quantifier

open Quantifier

theorem readQuantifier_isLocal (limits : Limits) (text : List Char) :
    IsLocalAt (readQuantifier limits) text := by
  rcases dropWhile_eq_nil_or_exists_stop Char.isDigit text with
    ended | ⟨digits, stop, after, rfl, inRun, stops⟩
  · apply IsLocalAt.of_end
    unfold readQuantifier
    rw [ended]
    rfl
  · have run := @readQuantifier_run limits digits stop inRun stops
    by_cases closes : stop = '\x7d'
    · simp only [closes, if_pos] at run ⊢
      rcases exists_upperBound limits digits with ⟨count, bounded⟩ | ⟨fault, refused⟩
      · exact .of_value digits (.exactly count) fun behind => by
          rw [run, bounded]
          rfl
      · exact .of_fault digits fault fun behind => by
          rw [run, refused]
          rfl
    · simp only [if_neg closes] at run
      by_cases separates : isSeparator stop = true
      · simp only [if_pos separates] at run
        rcases exists_number digits with ⟨low, written⟩ | ⟨fault, refused⟩
        · rw [List.append_cons]
          refine (readUpper_isLocal limits low after).behind _ id fun other _ => ?_
          rw [← List.append_cons, run, written]
          exact (Reading.mapValue_id _).symm
        · exact .of_fault digits fault fun behind => by
            rw [run, refused]
            rfl
      · exact .of_fault digits (.nonDigit stop) fun behind => by rw [run, if_neg separates]

/-! ## Character sets -/

open CharacterSet

/-- A structural character that does not close the set is a fault whatever follows it. -/
theorem readMembers_meta {limits : Limits} {first : Char} (structural : isMeta first = true)
    (opens : first ≠ ']') (rest : List Char) :
    readMembers limits (first :: rest) = .error ⟨.strayMetaInClass first, first :: rest⟩ := by
  have unescaped := ne_backslash_of_isMeta structural
  unfold readMembers
  split <;> simp_all

theorem readMembers_isLocal_of_meta {limits : Limits} {first : Char}
    (opens : first ≠ ']') (structural : isMeta first = true) (rest : List Char) :
    IsLocalAt (readMembers limits) (first :: rest) :=
  .of_fault [] (.strayMetaInClass first) fun behind =>
    readMembers_meta structural opens behind

/-- Behind an ordinary character and a hyphen the second end decides. -/
theorem readMembers_hyphen {limits : Limits} {first second : Char}
    (ordinary : isMeta first = false) (unescaped : first ≠ '\\') (rest : List Char) :
    readMembers limits (first :: '-' :: second :: rest) =
      if isMeta second then .error ⟨.badRangeEnd, second :: rest⟩
      else
        match expandRange limits.maxRangeSpan first second with
        | .error tooLarge => .error ⟨.rangeTooLarge first second tooLarge.span, second :: rest⟩
        | .ok range => addMembers range (readMembers limits rest) := by
  have opens : first ≠ ']' := by
    rintro rfl
    cases ordinary
  rw [readMembers]
  · cases expandRange limits.maxRangeSpan first second <;> simp [ordinary]
  · exact opens
  · exact unescaped

theorem readMembers_isLocal (limits : Limits) (text : List Char) :
    IsLocalAt (readMembers limits) text := by
  fun_induction readMembers limits text with
  | case1 => exact .of_end (by rw [readMembers]; rfl)
  | case2 after =>
      exact .of_value [] [] fun behind => by
        rw [List.nil_append, readMembers]
  | case3 => exact .of_end (by rw [readMembers]; rfl)
  | case4 escaped rest ih =>
      exact ih.behind ['\\', escaped] (escapedMembers escaped ++ ·) fun other _ => by
        simp [readMembers]
        rfl
  | case5 first opens _ structural => exact readMembers_isLocal_of_meta opens structural _
  | case6 first opens unescaped ordinary =>
      exact .of_end (by simp_all [readMembers, Reading.rest])
  | case7 first second rest opens _ structural =>
      exact readMembers_isLocal_of_meta opens structural _
  | case8 first second rest _ unescaped ordinary structural =>
      rw [Bool.not_eq_true] at ordinary
      exact .of_fault [first, '-'] .badRangeEnd fun behind => by
        simp [readMembers_hyphen ordinary unescaped, structural]
  | case9 first second rest _ unescaped ordinary secondOrdinary tooLarge expands =>
      rw [Bool.not_eq_true] at ordinary
      exact .of_fault [first, '-'] (.rangeTooLarge first second tooLarge.span)
        fun behind => by
          simp [readMembers_hyphen ordinary unescaped, secondOrdinary, expands]
  | case10 first second rest _ unescaped ordinary secondOrdinary range expands ih =>
      rw [Bool.not_eq_true] at ordinary
      exact ih.behind [first, '-', second] (range ++ ·) fun other _ => by
        simp [readMembers_hyphen ordinary unescaped, secondOrdinary, expands]
        rfl
  | case11 member rest opens _ _ _ _ structural =>
      exact readMembers_isLocal_of_meta opens structural _
  | case12 member rest _ alone escapes pending ranges ordinary ih =>
      rw [Bool.not_eq_true] at ordinary
      have unescaped := ne_backslash_of_cases alone escapes
      have noHyphen := head?_ne_hyphen_of_cases pending ranges
      exact ih.behind [member] ([member] ++ ·) fun other same =>
        readMembers_single ordinary unescaped (by simpa [same.head?_eq] using noHyphen)

theorem readRepetition_isLocal (limits : Limits) (text : List Char) :
    IsLocalAt (readRepetition limits) text := by
  by_cases braced : text.head? = some '\x7b'
  · obtain ⟨rest, rfl⟩ : ∃ rest, text = '\x7b' :: rest := List.head?_eq_some_iff.mp braced
    exact (readQuantifier_isLocal limits rest).behind ['\x7b'] id fun other _ =>
      (Reading.mapValue_id _).symm
  · have absent (other : List Char) (noBrace : other.head? ≠ some '\x7b') :
        readRepetition limits other = .ok (.once, other) := by
      unfold readRepetition
      split
      · exact absurd rfl noBrace
      · rfl
    refine .of_outcome [] (.ok (.once, text)) fun other same => ?_
    exact absent other (by rwa [same.head?_eq])

theorem readCharacterSet_isLocal (limits : Limits) (text : List Char) :
    IsLocalAt (readCharacterSet limits) text := by
  have ⟨passed, parts, again⟩ := readMembers_isLocal limits text
  cases within : readMembers limits text with
  | error failure =>
      rw [within] at parts again
      rw [parts]
      refine .of_outcome passed (.error failure) fun other same => ?_
      rw [readCharacterSet, again other same]
      rfl
  | ok read =>
      rcases read with ⟨members, after⟩
      rw [within] at parts again
      by_cases none : members = []
      · obtain ⟨written, rfl, writes⟩ := readMembers_sound within
        obtain rfl := writes.members_eq_nil_iff.mp none
        exact .of_fault [] .emptyClass fun behind => by
          simp [readCharacterSet, readMembers, Except.bind]
      · rw [parts]
        refine (readRepetition_isLocal limits after).behind passed (.characterSet members ·)
          fun other same => ?_
        have notEmpty : members.isEmpty = false := by simpa using none
        rw [readCharacterSet, again other same]
        simp only [Reading.withRest, Except.bind, notEmpty]
        rfl

/-! ## Tokens -/

/--
A token is read in the same way in front of every rest with the same front.  Its first
character is always passed, unless it is the fault.
-/
def IsLocalToken (limits : Limits) (first : Char) (rest : List Char) : Prop :=
  ∃ passed, first :: rest = passed ++ (readToken limits first rest).rest ∧
    ∀ other, SameFront (readToken limits first rest).rest other →
      ∃ behind, passed ++ other = first :: behind ∧
        readToken limits first behind = (readToken limits first rest).withRest other

theorem IsLocalAt.token {limits : Limits} {first : Char} {rest : List Char}
    (isLocal : IsLocalAt (readToken limits first) rest) : IsLocalToken limits first rest := by
  obtain ⟨passed, parts, again⟩ := isLocal
  refine ⟨first :: passed, congrArg (first :: ·) parts, ?_⟩
  intro other same
  exact ⟨passed ++ other, rfl, again other same⟩

/-- A structural character that begins no token is a fault. -/
theorem readToken_stray {limits : Limits} {first : Char} {rest : List Char}
    (structural : isMeta first = true) (noToken : first ∉ ['[', '(', ')', '|', '&'])
    (noReference : first = '$' → rest.head? ≠ some '\x7b') :
    readToken limits first rest = .error ⟨.strayMeta first, first :: rest⟩ := by
  unfold readToken
  split <;> simp_all

theorem readToken_isLocal (limits : Limits) (first : Char) (rest : List Char) :
    IsLocalToken limits first rest := by
  by_cases structural : isMeta first = true
  · by_cases token : first ∈ ['[', '(', ')', '|', '&']
    · apply IsLocalAt.token
      simp only [List.mem_cons, List.not_mem_nil, or_false] at token
      rcases token with rfl | rfl | rfl | rfl | rfl
      · exact (readCharacterSet_isLocal limits rest).behind [] .leaf
          fun other _ => rfl
      · exact .of_outcome [] (.ok (.openGroup, rest)) fun other _ => rfl
      · exact .of_outcome [] (.ok (.closeGroup, rest)) fun other _ => rfl
      · exact .of_outcome [] (.ok (.operator .alternate, rest)) fun other _ => rfl
      · exact .of_outcome [] (.ok (.operator .permute, rest)) fun other _ => rfl
    · by_cases reference : first = '$' ∧ rest.head? = some '\x7b'
      · obtain ⟨rfl, braced⟩ := reference
        obtain ⟨name, rfl⟩ := List.head?_eq_some_iff.mp braced
        apply IsLocalAt.token
        exact (readReference_isLocal name).behind ['\x7b'] (.leaf <| .reference ·)
          fun other _ => rfl
      · have stray (behind : List Char) (sameNext : behind.head? = rest.head?) :
            readToken limits first behind = .error ⟨.strayMeta first, first :: behind⟩ := by
          apply readToken_stray structural token
          rintro dollar braced
          exact reference ⟨dollar, sameNext ▸ braced⟩
        refine ⟨[], ?_, ?_⟩
        · rw [stray rest rfl]
          rfl
        · rw [stray rest rfl]
          intro other same
          obtain ⟨behind, rfl, sameNext⟩ := same.exists_cons
          exact ⟨behind, rfl, stray behind sameNext⟩
  · rw [Bool.not_eq_true] at structural
    obtain ⟨passed, parts, again⟩ := readLiteral_isLocal (first :: rest)
    have reads (tail : List Char) : readToken limits first tail =
        (readLiteral (first :: tail)).mapValue (.leaf <| .literal ·) :=
      readToken_of_ordinary limits tail structural
    refine ⟨passed, ?_, ?_⟩
    · rw [reads, Reading.rest_mapValue]
      exact parts
    · intro other same
      rw [reads, Reading.rest_mapValue] at same
      have front := same.append passed
      rw [← parts] at front
      obtain ⟨behind, whole, -⟩ := front.exists_cons
      refine ⟨behind, whole, ?_⟩
      rw [reads, ← whole, again other same, reads, Reading.withRest_mapValue]

/-! ## Patterns -/

/-- A token of more than one character is a leaf. -/
theorem leaf_or_single_of_readToken {limits : Limits} {first : Char} {rest after : List Char}
    {token : Token} (reads : readToken limits first rest = .ok (token, after)) :
    (∃ node, token = .leaf node) ∨ rest = after ∧
      (token = .openGroup ∧ first = '(' ∨ token = .closeGroup ∧ first = ')' ∨
        ∃ operator, token = .operator operator ∧ first = operator.symbol) := by
  unfold readToken at reads
  split at reads
  · obtain ⟨_, _, pair⟩ := Reading.map_eq_ok_iff.mp reads
    cases pair
    exact .inl ⟨_, rfl⟩
  · cases reads
    exact .inr ⟨rfl, .inl ⟨rfl, rfl⟩⟩
  · cases reads
    exact .inr ⟨rfl, .inr (.inl ⟨rfl, rfl⟩)⟩
  · cases reads
    exact .inr ⟨rfl, .inr (.inr ⟨.alternate, rfl, rfl⟩)⟩
  · cases reads
    exact .inr ⟨rfl, .inr (.inr ⟨.permute, rfl, rfl⟩)⟩
  · obtain ⟨_, _, pair⟩ := Reading.map_eq_ok_iff.mp reads
    cases pair
    exact .inl ⟨_, rfl⟩
  · split at reads
    · cases reads
    · obtain ⟨_, _, pair⟩ := Reading.map_eq_ok_iff.mp reads
      cases pair
      exact .inl ⟨_, rfl⟩

/-- A token that is no leaf is one character, whatever stands behind it. -/
theorem exists_leaf_or_readToken {limits : Limits} {first : Char} {rest after : List Char}
    {token : Token} (reads : readToken limits first rest = .ok (token, after)) :
    (∃ node, token = .leaf node) ∨
      ∀ behind, readToken limits first behind = .ok (token, behind) := by
  rcases leaf_or_single_of_readToken reads with
    leaf | ⟨-, ⟨rfl, rfl⟩ | ⟨rfl, rfl⟩ | ⟨operator, rfl, rfl⟩⟩
  · exact .inl leaf
  · exact .inr fun behind => rfl
  · exact .inr fun behind => rfl
  · refine .inr fun behind => ?_
    cases operator <;> rfl

/-- A failure of reading stays when the rest is exchanged for one with the same front. -/
theorem readTree_failure_local {limits : Limits} {nesting : Nesting} {text : List Char}
    {failure : Failure} (failed : readTree limits nesting text = .error failure) :
    ∃ passed, text = passed ++ failure.remaining ∧
      ∀ other, SameFront failure.remaining other →
        readTree limits nesting (passed ++ other) = .error ⟨failure.fault, other⟩ := by
  fun_induction readTree limits nesting text with
  | case1 nesting =>
      cases finished : nesting.finish with
      | ok tree =>
          rw [finished] at failed
          cases failed
      | error fault =>
          rw [finished] at failed
          cases failed
          refine ⟨[], rfl, ?_⟩
          intro other same
          obtain rfl := same.eq_nil
          rw [List.append_nil, readTree, finished]
          rfl
  | case2 nesting first rest found reads =>
      cases failed
      obtain ⟨passed, parts, again⟩ := readToken_isLocal limits first rest
      rw [reads] at parts again
      refine ⟨passed, parts, ?_⟩
      intro other same
      obtain ⟨behind, whole, failsAgain⟩ := again other same
      rw [whole, readTree_cons, failsAgain]
      rfl
  | case3 nesting first rest token after reads fault takes =>
      cases failed
      refine ⟨[], rfl, ?_⟩
      intro other same
      obtain ⟨behind, rfl, -⟩ := same.exists_cons
      rcases exists_leaf_or_readToken reads with ⟨node, rfl⟩ | single
      · cases takes
      · rw [List.nil_append, readTree_cons, single]
        simp only [takes]
  | case4 nesting first rest token after reads deeper takes _ ih =>
      obtain ⟨later, laterParts, failsLater⟩ := ih failed
      obtain ⟨passed, parts, again⟩ := readToken_isLocal limits first rest
      rw [reads] at parts again
      simp only [Reading.rest] at parts again
      refine ⟨passed ++ later, by rw [parts, laterParts, List.append_assoc], ?_⟩
      intro other same
      have front : SameFront after (later ++ other) := by
        rw [laterParts]
        exact same.append later
      obtain ⟨behind, whole, readsAgain⟩ := again _ front
      rw [List.append_assoc, whole, readTree_cons, readsAgain]
      simp only [Reading.withRest, takes]
      exact failsLater other same

/-- A text that agrees with another one up to two characters behind a place has its front. -/
theorem exists_sameFront {passed rest text : List Char}
    (same : (passed ++ rest).take (passed.length + 2) = text.take (passed.length + 2)) :
    ∃ other, text = passed ++ other ∧ SameFront rest other := by
  rw [List.take_length_add_append] at same
  refine ⟨text.drop passed.length, ?_, ?_⟩
  · have begins := congrArg (List.take passed.length) same
    rw [List.take_left, List.take_take, Nat.min_eq_left (Nat.le_add_right _ _)] at begins
    conv => rhs; lhs; rw [begins]
    exact (List.take_append_drop _ _).symm
  · have behind := congrArg (List.drop passed.length) same
    rw [List.drop_left, List.drop_take, Nat.add_sub_cancel_left] at behind
    exact behind

/-- The place of a failure is the one behind the text that was passed. -/
theorem locate_append (fault : SyntaxFault) (passed rest : List Char) :
    Failure.locate ⟨fault, rest⟩ (passed ++ rest) = ⟨fault, passed.foldl Position.next .start⟩ := by
  simp only [Failure.locate, Position.ofOffset, List.length_append, Nat.add_sub_cancel,
    List.take_left]

/--
A syntax error is local to the text read so far: every pattern with the same characters up to
the one behind the error fails with the same fault at the same place.
-/
theorem parse_error_of_same_front {limits : Limits} {pattern other : List Char}
    {error : SyntaxError} (failed : parse limits pattern = .error error)
    (same : pattern.take (error.position.offset + 2) = other.take (error.position.offset + 2)) :
    parse limits other = .error error := by
  unfold parse at failed ⊢
  cases read : readTree limits .root pattern with
  | ok tree =>
      rw [read] at failed
      cases failed
  | error failure =>
      rw [read] at failed
      obtain ⟨passed, rfl, again⟩ := readTree_failure_local read
      obtain rfl : failure.locate (passed ++ failure.remaining) = error := Except.error.inj failed
      rw [locate_append, Position.offset_foldl_next] at same
      simp only [Position.start, Nat.zero_add] at same
      obtain ⟨rest, rfl, front⟩ := exists_sameFront same
      rw [again rest front, locate_append]
      exact congrArg Except.error (locate_append failure.fault passed rest)

/-- The fault at the second hyphen stays when the text two characters behind it changes. -/
theorem parse_error_of_second_separator :
    let pattern := "[ab]\x7b1:2-3\x7dc".toList
    let other := "[ab]\x7b1:2-3)))".toList
    let error : SyntaxError := ⟨.secondSeparator, ⟨8, 1, 9⟩⟩
    parse {} pattern = .error error ∧ pattern.take 10 = other.take 10 ∧
      parse {} other = .error error := by
  intro pattern other error
  have failed : parse {} pattern = .error error := by decide +kernel
  have same : pattern.take 10 = other.take 10 := by decide
  exact ⟨failed, same, parse_error_of_same_front failed same⟩

end TextTemplate
