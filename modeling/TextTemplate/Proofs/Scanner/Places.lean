import TextTemplate.Pattern.Scanner
import TextTemplate.Proofs.Pattern.Locality

/-!
# Places and rests

A cursor that has not left its text is the same thing as the part of the text ahead of it.  In
these terms moving a cursor is dropping a character, and a reading of the rest of a pattern says
what a scan does: a value leaves the cursor in front of the rest behind it, and a failure leaves
the cursor on the character where the fault was noticed.
-/

namespace TextTemplate

namespace Cursor

/-- What a cursor has ahead, without the character under it. -/
def ahead (cursor : Cursor) : List Char := cursor.text.toList.drop cursor.passed

/-- The cursor that has the rest of a pattern ahead. -/
def before (pattern rest : List Char) : Cursor :=
  ⟨pattern.toArray, pattern.length - rest.length, by
    rw [List.size_toArray]
    omega⟩

variable {pattern rest after : List Char} {first : Char} {cursor : Cursor}

/-! ## Moving a cursor -/

@[simp]
theorem text_before (pattern rest : List Char) : (before pattern rest).text = pattern.toArray :=
  rfl

@[simp]
theorem text_advance (cursor : Cursor) : cursor.advance.text = cursor.text := by
  unfold advance
  split <;> rfl

theorem passed_advance (room : cursor.passed ≤ cursor.text.size) :
    cursor.advance.passed = cursor.passed + 1 := by
  rw [advance, dif_pos room]

theorem passed_le_advance (cursor : Cursor) : cursor.passed ≤ cursor.advance.passed := by
  unfold advance
  split
  · exact Nat.le_succ _
  · exact Nat.le_refl _

/-- A cursor with a character ahead moves onto it. -/
theorem passed_lt_advance (more : cursor.next?.isSome = true) :
    cursor.passed < cursor.advance.passed := by
  have inside : cursor.passed < cursor.text.size := by
    by_contra outside
    rw [next?, Array.getElem?_eq_none (Nat.le_of_not_lt outside)] at more
    cases more
  rw [passed_advance (Nat.le_of_lt inside)]
  exact Nat.lt_succ_self _

/-- What was under a cursor is one step back when the cursor has moved. -/
theorem previous?_advance (room : cursor.passed ≤ cursor.text.size) :
    cursor.advance.previous? = cursor.current? := by
  rw [advance, dif_pos room]
  rcases cursor with ⟨text, _ | index, bound⟩ <;> rfl

/-! ## Cursors in front of a rest -/

theorem ofText_eq_before (pattern : List Char) : ofText pattern = before pattern pattern := by
  simp [ofText, before]

/-- A cursor that has not left its text is told by what it has ahead. -/
theorem before_ahead (cursor : Cursor) (inside : cursor.passed ≤ cursor.text.size) :
    before cursor.text.toList cursor.ahead = cursor := by
  rcases cursor with ⟨text, passed, bound⟩
  have whole : text.size - (text.size - passed) = passed := by
    have room : passed ≤ text.size := inside
    omega
  simp [before, ahead, whole]

theorem passed_before (within : rest <:+ pattern) :
    (before pattern rest).passed + rest.length = pattern.length := by
  have short := within.length_le
  simp only [before]
  omega

theorem room_before (pattern rest : List Char) :
    (before pattern rest).passed ≤ (before pattern rest).text.size := by
  simp [before]

@[simp]
theorem ahead_before (within : rest <:+ pattern) : (before pattern rest).ahead = rest := by
  rw [ahead, text_before, before]
  exact (List.suffix_iff_eq_drop.mp within).symm

theorem unread_before (within : rest <:+ pattern) :
    (before pattern rest).unread = rest.length + 1 := by
  have whole := passed_before within
  rw [unread, text_before, List.size_toArray]
  omega

/-- A cursor in front of a character moves behind it. -/
@[simp]
theorem advance_before (within : first :: rest <:+ pattern) :
    (before pattern (first :: rest)).advance = before pattern rest := by
  have short := within.length_le
  rw [List.length_cons] at short
  have step : pattern.length - (rest.length + 1) + 1 = pattern.length - rest.length := by omega
  rw [advance, dif_pos (room_before _ _)]
  simp [before, step]

theorem next?_before (within : rest <:+ pattern) : (before pattern rest).next? = rest.head? := by
  have same := ahead_before within
  rw [ahead] at same
  rw [next?, ← Array.getElem?_toList, ← List.head?_drop, same]

theorem current?_advance_before (within : rest <:+ pattern) :
    (before pattern rest).advance.current? = rest.head? := by
  rw [current?_advance, next?_before within]

theorem current?_before (within : first :: rest <:+ pattern) :
    (before pattern rest).current? = some first := by
  rw [← advance_before within, current?_advance_before within]
  rfl

/-- The rest is shorter behind a character. -/
theorem unread_lt_unread (within : rest <:+ pattern) (later : after <:+ pattern)
    (shorter : after.length < rest.length) :
    (before pattern after).unread < (before pattern rest).unread := by
  rw [unread_before within, unread_before later]
  omega

end Cursor

/-! ## Readings as scans -/

/-- The stop for a failure in a pattern. -/
def Failure.stop (failure : Failure) (pattern : List Char) : Stop :=
  .fault failure.fault (Cursor.before pattern failure.remaining).advance

namespace Reading

variable {α β : Type}

/-- What a reading of the rest of a pattern means for a cursor. -/
def scan (reading : Reading α) (pattern : List Char) : Scan α :=
  match reading with
  | .ok (value, after) => .ok (value, .before pattern after)
  | .error failure => .error (failure.stop pattern)

theorem scan_mapValue (reading : Reading α) (change : α → β) (pattern : List Char) :
    (reading.mapValue change).scan pattern =
      (reading.scan pattern).map fun (value, after) => (change value, after) := by
  rcases reading with failure | ⟨value, after⟩ <;> rfl

theorem mapValue_mapValue {γ : Type} (reading : Reading α) (first : α → β) (second : β → γ) :
    (reading.mapValue first).mapValue second =
      reading.mapValue fun value => second (first value) := by
  rcases reading with failure | ⟨value, after⟩ <;> rfl

end Reading

/-- A fault at a character of a pattern is noticed with the cursor on it. -/
theorem Failure.stop_cons (fault : SyntaxFault) {first : Char} {rest pattern : List Char}
    (within : first :: rest <:+ pattern) :
    Failure.stop ⟨fault, first :: rest⟩ pattern = .fault fault (.before pattern rest) := by
  rw [Failure.stop, Cursor.advance_before within]

/-! ## Loops -/

namespace Scan

variable {σ α : Type} {round : σ → Cursor → Scan (Round σ α)} {state later : σ}
  {cursor after : Cursor}

theorem rounds_error {stop : Stop} (ends : round state cursor = .error stop) :
    rounds round state cursor = .error stop := by
  rw [rounds, ends]

theorem rounds_done {value : α} (ends : round state cursor = .ok (.done value, after)) :
    rounds round state cursor = .ok (value, after) := by
  rw [rounds, ends]

theorem rounds_again (goesOn : round state cursor = .ok (.again later, after))
    (moves : after.unread < cursor.unread) :
    rounds round state cursor = rounds round later after := by
  rw [rounds, goesOn]
  exact if_pos moves

end Scan

end TextTemplate
