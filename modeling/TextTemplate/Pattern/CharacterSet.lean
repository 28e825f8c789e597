import TextTemplate.Pattern.CharClass
import TextTemplate.Pattern.Quantifier

/-!
# Character sets

Brackets hold the members of a set: single characters, ranges and escapes.  Members keep
their order and their repetitions.  A character is the start of a range exactly when a
hyphen follows it, and the other end of a range is taken as it stands.
-/

namespace TextTemplate

namespace CharacterSet

/-- Puts members in front of those read later. -/
def addMembers (members : List Char) (reading : Reading (List Char)) : Reading (List Char) :=
  reading.map fun (later, after) => (members ++ later, after)

/-- Reads members up to the closing bracket, which is taken off. -/
def readMembers (limits : Limits) : List Char → Reading (List Char)
  | [] => .error ⟨.unterminatedClass, []⟩
  | ']' :: after => .ok ([], after)
  | ['\\'] => .error ⟨.unterminatedClass, []⟩
  | '\\' :: escaped :: rest => addMembers (escapedMembers escaped) (readMembers limits rest)
  | [first, '-'] =>
      if isMeta first then .error ⟨.strayMetaInClass first, [first, '-']⟩
      else .error ⟨.badRangeEnd, []⟩
  | first :: '-' :: second :: rest =>
      if isMeta first then .error ⟨.strayMetaInClass first, first :: '-' :: second :: rest⟩
      else if isMeta second then .error ⟨.badRangeEnd, second :: rest⟩
      else
        match expandRange limits.maxRangeSpan first second with
        | .error tooLarge => .error ⟨.rangeTooLarge first second tooLarge.span, second :: rest⟩
        | .ok range => addMembers range (readMembers limits rest)
  | member :: rest =>
      if isMeta member then .error ⟨.strayMetaInClass member, member :: rest⟩
      else addMembers [member] (readMembers limits rest)

/-- An ordinary character in front of a hyphen begins a range. -/
theorem readMembers_range {limits : Limits} {first second : Char} {range : List Char}
    (firstOrdinary : isMeta first = false) (unescaped : first ≠ '\\')
    (secondOrdinary : isMeta second = false)
    (expands : expandRange limits.maxRangeSpan first second = .ok range) (rest : List Char) :
    readMembers limits (first :: '-' :: second :: rest) =
      addMembers range (readMembers limits rest) := by
  have notClosing : first ≠ ']' := by
    rintro rfl
    cases firstOrdinary
  rw [readMembers]
  · simp [firstOrdinary, secondOrdinary, expands]
  · exact notClosing
  · exact unescaped

/-- An ordinary character that no hyphen follows is a member. -/
theorem readMembers_single {limits : Limits} {member : Char} {rest : List Char}
    (ordinary : isMeta member = false) (unescaped : member ≠ '\\')
    (noRange : rest.head? ≠ some '-') :
    readMembers limits (member :: rest) = addMembers [member] (readMembers limits rest) := by
  have notClosing : member ≠ ']' := by
    rintro rfl
    cases ordinary
  rw [readMembers]
  · simp [ordinary]
  · exact notClosing
  · exact fun same _ => unescaped same
  · exact fun _ _ same _ => unescaped same
  · rintro rfl
    exact noRange rfl
  · rintro second tail rfl
    exact noRange rfl

/-- Reads the quantifier behind a class, or takes the class once. -/
def readRepetition (limits : Limits) : List Char → Reading Repetition
  | '\x7b' :: rest => readQuantifier limits rest
  | rest => .ok (.once, rest)

theorem addMembers_leaves {bound : Nat} {reading : Reading (List Char)}
    (members : List Char) (leaves : LeavesAtMost bound reading) :
    LeavesAtMost bound (addMembers members reading) :=
  leaves.map fun _ _ => rfl

theorem readMembers_leaves (limits : Limits) (text : List Char) :
    LeavesAtMost text.length (readMembers limits text) := by
  fun_induction readMembers limits text <;> first
    | exact .error _
    | exact .ok (Nat.le_succ _)
    | next ih => exact (addMembers_leaves _ ih).mono (by simp only [List.length_cons]; omega)

theorem readRepetition_leaves (limits : Limits) (text : List Char) :
    LeavesAtMost text.length (readRepetition limits text) := by
  unfold readRepetition
  split
  · exact (readQuantifier_leaves limits _).mono (Nat.le_succ _)
  · exact .ok (Nat.le_refl _)

end CharacterSet

/-- Reads a character set behind its opening bracket, with its quantifier if it has one. -/
def readCharacterSet (limits : Limits) (text : List Char) : Reading Node :=
  (CharacterSet.readMembers limits text).bind fun (members, after) =>
    if members.isEmpty then .error ⟨.emptyClass, ']' :: after⟩
    else
      (CharacterSet.readRepetition limits after).map fun (repetition, rest) =>
        (.characterSet members repetition, rest)

theorem readCharacterSet_leaves (limits : Limits) (text : List Char) :
    LeavesAtMost text.length (readCharacterSet limits text) := by
  refine .bind (CharacterSet.readMembers_leaves limits text) fun members after fits => ?_
  dsimp only
  split
  · exact .error _
  · exact ((CharacterSet.readRepetition_leaves limits after).map fun _ _ => rfl).mono fits

end TextTemplate
