import TextTemplate.Proofs.Pattern.WiderLimits
import TextTemplate.Proofs.Scanner.Sequences

/-!
# What routines may do with the cursor

All routines keep to the same rules.  A routine that is entered on the character that selected it
never moves back, and leaves the cursor on the last character that it has taken, which differs from
routine to routine.  A fault is noticed on a character or just past the end.  A round that takes
something moves the cursor, so no loop stalls.
-/

namespace TextTemplate

open Cursor Reading

/-- The error for a stop; a loop that stalls has none. -/
def Stop.error? : Stop → Option SyntaxError
  | .fault noticed place => some ⟨noticed, place.position⟩
  | .stalled => none

theorem WritesRepetition.eq_nil_or_closed {limits : Limits} {text : List Char}
    {repetition : Repetition}
    (writes : WritesRepetition limits text repetition) :
    text = [] ∨ ∃ inner, text = inner ++ ['\x7d'] := by
  cases writes with
  | once => exact .inl rfl
  | exactly digits fits allowed => exact .inr ⟨_, rfl⟩
  | between lowerDigits parted upperDigits named ordered fits allowed => exact .inr ⟨_, rfl⟩

namespace Scan

variable {α : Type} {limits : Limits} {pattern text : List Char} {first : Char} {entry : Cursor}

/-! ## Rules -/

/--
What a routine may do that is entered at a cursor: succeed at a place where it may rest, or notice
a fault between the first character and the end.  It may not move back and it may not stall.
-/
def Honours (entry : Cursor) (rests : α → Cursor → Prop) : Scan α → Prop
  | .ok (value, place) =>
      place.text = entry.text ∧ entry.passed ≤ place.passed ∧ rests value place
  | .error (.fault _ place) =>
      place.text = entry.text ∧ entry.passed ≤ place.passed ∧
        1 ≤ place.passed ∧ place.passed ≤ entry.text.size + 1
  | .error .stalled => False

/-- A round leaves the cursor further on, be it with a fault or without. -/
def MovesOn (cursor : Cursor) : Scan α → Prop
  | .ok (_, place) => cursor.passed < place.passed
  | .error (.fault _ place) => cursor.passed < place.passed
  | .error .stalled => False

/-- The cursor is on the parenthesis that closes the group opened at the entry. -/
def ClosesGroup (limits : Limits) (depth : Nat) (entry : Cursor) (node : Node)
    (place : Cursor) : Prop :=
  place.current? = some ')' ∧ ∃ written tokens nodes,
    entry.ahead = written ++ ')' :: place.ahead ∧ WritesTokens limits written tokens ∧
      SequenceTokens limits depth tokens nodes ∧ node = .sequence nodes

theorem honours_stop {rests : α → Cursor → Prop} {failure : Failure}
    (stays : failure.remaining.length ≤ text.length + 1) :
    Honours (.before pattern text) rests (.error (failure.stop pattern)) := by
  have room := room_before pattern failure.remaining
  refine ⟨text_advance _, ?_, ?_, ?_⟩
  · rw [passed_advance room]
    simp only [before]
    omega
  · rw [passed_advance room]
    exact Nat.le_add_left 1 _
  · rw [passed_advance room]
    exact Nat.succ_le_succ room

/-- A routine that scans what is read rests where the reading ends. -/
theorem honours_scan {rests : α → Cursor → Prop} {reading : Reading α}
    (stays : reading.rest.length ≤ text.length + 1)
    (ends : ∀ value after, reading = .ok (value, after) →
      after.length ≤ text.length ∧ rests value (.before pattern after)) :
    Honours (.before pattern text) rests (reading.scan pattern) := by
  cases reading with
  | error failure => exact honours_stop stays
  | ok pair =>
      obtain ⟨shorter, rested⟩ := ends pair.1 pair.2 rfl
      exact ⟨rfl, Nat.sub_le_sub_left shorter _, rested⟩

/-! ## Entries -/

/-- A cursor on a character stands in front of the rest behind that character. -/
theorem exists_before (selected : entry.current? = some first) :
    ∃ pattern text, first :: text <:+ pattern ∧ entry = before pattern text := by
  rcases entry with ⟨array, _ | index, bound⟩
  · cases selected
  · have found : array.toList[index]? = some first := by
      rw [Array.getElem?_toList]
      exact selected
    obtain ⟨inside, same⟩ := List.getElem?_eq_some_iff.mp found
    have whole := List.drop_eq_getElem_cons inside
    rw [same] at whole
    refine ⟨array.toList, array.toList.drop (index + 1), whole ▸ List.drop_suffix index _, ?_⟩
    rw [Array.length_toList] at inside
    exact (before_ahead ⟨array, index + 1, bound⟩ inside).symm

/-! ## Routines -/

/-- A place is on the last character in front of the rest. -/
theorem current?_of_split (inner : List Char) {after : List Char} (within : text <:+ pattern)
    (split : text = inner ++ first :: after) : (before pattern after).current? = some first :=
  current?_before (.trans ⟨inner, split.symm⟩ within)

theorem characterSet_honours (selected : entry.current? = some '[') :
    Honours entry (fun _ place => place.current? = some ']' ∨ place.current? = some '\x7d')
      (characterSet limits entry) := by
  obtain ⟨pattern, text, within, rfl⟩ := exists_before selected
  have behind := (List.suffix_cons '[' _).trans within
  rw [characterSet_before behind]
  have stays := (readCharacterSet_isLocal limits text).length_rest_le
  refine honours_scan (Nat.le_succ_of_le stays) fun node after read => ?_
  refine ⟨readCharacterSet_leaves limits text _ _ read, ?_⟩
  obtain ⟨written, members, quantifier, repetition, split, -, -, repeats, -⟩ :=
    readCharacterSet_sound read
  rcases repeats.eq_nil_or_closed with rfl | ⟨inner, rfl⟩
  · exact .inl (current?_of_split written behind (by simpa using split))
  · exact .inr (current?_of_split (written ++ ']' :: inner) behind (by simpa using split))

theorem quantifier_honours (selected : entry.current? = some '\x7b') :
    Honours entry (fun _ place => place.current? = some '\x7d') (quantifier limits entry) := by
  obtain ⟨pattern, text, within, rfl⟩ := exists_before selected
  rw [quantifier_before rfl within]
  have stays := (readQuantifier_isLocal limits text).length_rest_le
  refine honours_scan (Nat.le_succ_of_le stays) fun repetition after read => ?_
  have shorter := readQuantifier_leaves limits text _ _ read
  refine ⟨shorter, ?_⟩
  obtain ⟨written, split, repeats⟩ := readQuantifier_sound read
  rcases repeats.eq_nil_or_closed with rfl | ⟨inner, rfl⟩
  · rw [List.nil_append] at split
    rw [← split, List.length_cons] at shorter
    omega
  · exact current?_of_split inner within (by simpa using split)

theorem reference_honours (selected : entry.current? = some '$')
    (braced : entry.next? = some '\x7b') :
    Honours entry (fun _ place => place.current? = some '\x7d') (reference entry) := by
  obtain ⟨pattern, text, within, rfl⟩ := exists_before selected
  have behind := (List.suffix_cons '$' _).trans within
  rw [next?_before behind] at braced
  obtain ⟨name, rfl⟩ := List.head?_eq_some_iff.mp braced
  rw [reference_before behind]
  have stays := length_rest_mapValue_le Node.reference (readReference_isLocal name).length_rest_le
  refine honours_scan (Nat.le_trans stays (by simp [Nat.add_assoc])) fun node after read => ?_
  obtain ⟨⟨name, _⟩, read, pair⟩ := Reading.map_eq_ok_iff.mp read
  cases pair
  obtain ⟨rfl, -, -⟩ := readReference_sound read
  refine ⟨?_, current?_of_split ('\x7b' :: name) behind rfl⟩
  simp only [List.length_cons, List.length_append]
  omega

theorem literal_honours (selected : entry.current? = some first) (ordinary : isMeta first = false) :
    Honours entry (fun _ place => place.current?.isSome = true ∧ place.next?.all isMeta = true)
      (literal entry) := by
  obtain ⟨pattern, text, within, rfl⟩ := exists_before selected
  rw [literal_before ordinary within]
  have stays := (readLiteral_isLocal (first :: text)).length_rest_le
  refine honours_scan (length_rest_mapValue_le Node.literal stays) fun node after read => ?_
  obtain ⟨⟨content, _⟩, read, pair⟩ := Reading.map_eq_ok_iff.mp read
  cases pair
  have shorter := readLiteral_cons_leaves first text ordinary _ _ read
  obtain ⟨written, split, -, ends⟩ := readLiteral_sound read
  have tail : after <:+ pattern := .trans ⟨written, split.symm⟩ within
  refine ⟨shorter, ?_, ?_⟩
  · rcases List.eq_nil_or_concat written with rfl | ⟨inner, last, rfl⟩
    · rw [List.nil_append] at split
      rw [← split, List.length_cons] at shorter
      omega
    · rw [current?_of_split inner within (by simpa using split)]
      rfl
  · rw [next?_before tail]
    cases after with
    | nil => rfl
    | cons next rest => exact endsLiteral_cons_iff.mp ends

theorem sequence_honours (depth : Nat) (selected : entry.current? = some '(') :
    Honours entry (ClosesGroup limits (depth + 1) entry) (sequence limits (depth + 1) entry) := by
  obtain ⟨pattern, text, within, rfl⟩ := exists_before selected
  have behind := (List.suffix_cons '(' _).trans within
  have group := sequence_groupEnd limits depth within
  generalize sequence limits (depth + 1) (before pattern text) = outcome at group
  cases group with
  | @closed written after tokens nodes allowed same writes derives goesOn =>
      have closing : ')' :: after <:+ pattern := .trans ⟨written, same.symm⟩ behind
      have tail := (List.suffix_cons ')' _).trans closing
      refine ⟨rfl, Nat.sub_le_sub_left ?_ _, current?_before closing, written, tokens, nodes, ?_,
        writes.writesTokens, derives, rfl⟩
      · rw [same, List.length_append, List.length_cons]
        omega
      · rw [ahead_before behind, ahead_before tail, same]
  | failed failure fails =>
      -- The failure is the same for all chains around the group, so any will do.
      have fails := fails .empty (List.replicate depth .empty) List.length_replicate
      exact honours_stop (length_remaining_le fails)

theorem scan_honours (limits : Limits) (pattern : List Char) :
    Honours (.ofText pattern) (fun _ place => place.passed = pattern.length + 1)
      (scan limits pattern) := by
  rw [scan_eq_readTree, ofText_eq_before]
  cases read : readTree limits .root pattern with
  | error failure => exact honours_stop (Nat.le_succ_of_le (length_remaining_le read))
  | ok tree =>
      have last := passed_advance (room_before pattern [])
      refine ⟨text_advance _, ?_, last⟩
      rw [last]
      simp [before]

/-- Scanning a pattern comes to what parsing it comes to, at the same position. -/
theorem scan_eq_parse (limits : Limits) (pattern : List Char) :
    ((scan limits pattern).map Prod.fst).mapError Stop.error? =
      (parse limits pattern).mapError some := by
  rw [scan_eq_readTree, parse]
  cases readTree limits .root pattern with
  | ok tree => rfl
  | error failure =>
      have last := passed_advance (room_before pattern failure.remaining)
      simp [Except.map, Except.mapError, Failure.stop, Stop.error?, Failure.locate,
        Cursor.position, last]
      simp [before]

/-! ## Rounds -/

section Rounds

variable {cursor : Cursor}

theorem moves_inside (inside : cursor.passed ≤ cursor.text.size) :
    cursor.passed < cursor.advance.passed := by
  rw [passed_advance inside]
  exact Nat.lt_succ_self _

theorem memberRound_moves (members : List Char) (inside : cursor.passed ≤ cursor.text.size) :
    MovesOn cursor (memberRound limits members cursor) := by
  have moved := moves_inside inside
  have further := Nat.lt_of_lt_of_le moved (passed_le_advance cursor.advance)
  unfold memberRound
  dsimp only
  split
  · exact moved
  · exact moved
  · split <;> exact further
  · split
    · unfold rangeRound
      split
      · exact moved
      · have last := Nat.lt_of_lt_of_le further (passed_le_advance cursor.advance.advance)
        dsimp only
        split
        · exact last
        · split
          · exact last
          · split <;> exact last
    · split <;> exact moved

theorem quantifierRound_moves (state : Option Nat × List Char)
    (inside : cursor.passed ≤ cursor.text.size) :
    MovesOn cursor (quantifierRound state cursor) := by
  have moved := moves_inside inside
  unfold quantifierRound
  dsimp only
  split
  · exact moved
  · split <;> exact moved
  · split
    · split
      · exact moved
      · unfold number
        dsimp only
        split <;> exact moved
    · split <;> exact moved

theorem referenceRound_moves (name : List Char) (inside : cursor.passed ≤ cursor.text.size) :
    MovesOn cursor (referenceRound name cursor) := by
  have moved := moves_inside inside
  unfold referenceRound
  dsimp only
  split <;> exact moved

theorem literalStep_moves {text later : List Char} {place : Cursor}
    (taken : literalStep text cursor = .ok (.again later, place)) :
    cursor.passed < place.passed := by
  unfold literalStep at taken
  split at taken
  · cases taken
  · next found =>
      split at taken
      · cases taken
      · cases taken
        exact passed_lt_advance (found ▸ rfl)

theorem literalRound_moves {text later : List Char} {place : Cursor}
    (taken : literalRound text cursor = .ok (.again later, place)) :
    cursor.passed < place.passed := by
  unfold literalRound at taken
  split at taken
  · cases taken
  · split at taken
    · cases taken
    · exact Nat.lt_of_le_of_lt (passed_le_advance _) (literalStep_moves taken)
  · exact literalStep_moves taken

/-- An item that keeps to the rules ends behind the cursor in front of it. -/
theorem pushItem_moves {chain : Chain} {item : Scan Node} {rests : Node → Cursor → Prop}
    (moved : cursor.passed < cursor.advance.passed)
    (honours : Honours cursor.advance rests item) : MovesOn cursor (pushItem chain item) := by
  rcases item with (⟨noticed, place⟩ | _) | ⟨node, place⟩
  · exact Nat.lt_of_lt_of_le moved honours.2.1
  · exact honours
  · exact Nat.lt_of_lt_of_le moved honours.2.1

theorem joinOperator_moves {chain : Chain} {operator : Operator}
    (moved : cursor.passed < cursor.advance.passed) :
    MovesOn cursor (joinOperator chain operator cursor.advance) := by
  unfold joinOperator
  split <;> exact moved

theorem sequenceRound_moves (depth : Nat) (chain : Chain) (more : cursor.next?.isSome = true) :
    MovesOn cursor (sequenceRound limits depth (sequence limits (depth + 1)) chain cursor) := by
  have moved := passed_lt_advance more
  unfold sequenceRound
  dsimp only
  split
  · exact moved
  · next found =>
      split
      · next braced => exact pushItem_moves moved (reference_honours found braced)
      · exact moved
  · next found => exact pushItem_moves moved (characterSet_honours found)
  · next found => exact pushItem_moves moved (sequence_honours depth found)
  · split <;> exact moved
  · exact joinOperator_moves moved
  · exact joinOperator_moves moved
  · next found =>
      split
      · exact moved
      · next ordinary =>
          rw [Bool.not_eq_true] at ordinary
          exact pushItem_moves moved (literal_honours found ordinary)

end Rounds

/-! ## The contract -/

/-- The rules for the cursor that the routines share, and what each of them adds. -/
structure CursorContract (limits : Limits) : Prop where
  characterSet (entry : Cursor) (selected : entry.current? = some '[') :
    Honours entry (fun _ place => place.current? = some ']' ∨ place.current? = some '\x7d')
      (characterSet limits entry)
  quantifier (entry : Cursor) (selected : entry.current? = some '\x7b') :
    Honours entry (fun _ place => place.current? = some '\x7d') (quantifier limits entry)
  reference (entry : Cursor) (selected : entry.current? = some '$')
    (braced : entry.next? = some '\x7b') :
    Honours entry (fun _ place => place.current? = some '\x7d') (reference entry)
  /-- Literal text ends in front of a structural character or at the end. -/
  literal (entry : Cursor) (first : Char) (selected : entry.current? = some first)
    (ordinary : isMeta first = false) :
    Honours entry (fun _ place => place.current?.isSome = true ∧ place.next?.all isMeta = true)
      (literal entry)
  group (depth : Nat) (entry : Cursor) (selected : entry.current? = some '(') :
    Honours entry (ClosesGroup limits (depth + 1) entry) (sequence limits (depth + 1) entry)
  /-- A pattern is scanned past its end or not at all. -/
  pattern (pattern : List Char) :
    Honours (.ofText pattern) (fun _ place => place.passed = pattern.length + 1)
      (scan limits pattern)
  memberRound (members : List Char) (cursor : Cursor)
    (inside : cursor.passed ≤ cursor.text.size) :
    MovesOn cursor (memberRound limits members cursor)
  quantifierRound (state : Option Nat × List Char) (cursor : Cursor)
    (inside : cursor.passed ≤ cursor.text.size) : MovesOn cursor (quantifierRound state cursor)
  referenceRound (name : List Char) (cursor : Cursor)
    (inside : cursor.passed ≤ cursor.text.size) : MovesOn cursor (referenceRound name cursor)
  /-- The last round of literal text stays where it is. -/
  literalRound (text later : List Char) (cursor place : Cursor)
    (taken : literalRound text cursor = .ok (.again later, place)) : cursor.passed < place.passed
  /-- A sequence goes round as long as there is a character ahead. -/
  sequenceRound (depth : Nat) (chain : Chain) (cursor : Cursor)
    (more : cursor.next?.isSome = true) :
    MovesOn cursor (sequenceRound limits depth (sequence limits (depth + 1)) chain cursor)
  /-- The routines find the trees and the errors that patterns have, positions included. -/
  parses (pattern : List Char) :
    ((scan limits pattern).map Prod.fst).mapError Stop.error? =
      (parse limits pattern).mapError some

/-- Under all limits the routines keep to the contract. -/
theorem routines_honour_contract (limits : Limits) : CursorContract limits where
  characterSet _ := characterSet_honours
  quantifier _ := quantifier_honours
  reference _ := reference_honours
  literal _ _ := literal_honours
  group depth _ := sequence_honours depth
  pattern := scan_honours limits
  memberRound members _ := memberRound_moves members
  quantifierRound state _ := quantifierRound_moves state
  referenceRound name _ := referenceRound_moves name
  literalRound _ _ _ _ := literalRound_moves
  sequenceRound depth chain _ := sequenceRound_moves depth chain
  parses := scan_eq_parse limits

end Scan

end TextTemplate
