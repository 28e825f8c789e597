import TextTemplate.Proofs.Pattern.Leaves

/-!
# Escapes inside sets

A backslash among the members of a set begins an escape or is escaped, with a single exception:
the second end of a range is taken as it stands.  Backslashes behind one another are read in
pairs, so the first one of a run decides for all of them.
-/

namespace TextTemplate

open CharacterSet

variable {limits : Limits}

/--
A backslash behind some text of a set is the second end of a range: the two together are whole
elements, and only a range can end with a backslash that nothing escapes.
-/
def EndsRange (limits : Limits) (before : List Char) : Prop :=
  ∃ members, WritesMembers limits (before ++ ['\\']) members

namespace WritesMembers

/-! ## Elements at the front -/

/-- A backslash at the front escapes the character behind it. -/
theorem of_backslash {character : Char} {written members : List Char}
    (writes : WritesMembers limits ('\\' :: character :: written) members) :
    ∃ later, WritesMembers limits written later ∧ members = escapedMembers character ++ later := by
  cases writes with
  | escaped _ rest => exact ⟨_, rest, rfl⟩
  | range firstOrdinary unescaped secondOrdinary expands rest => exact absurd rfl unescaped
  | single ordinary unescaped noRange rest => exact absurd rfl unescaped

theorem not_backslash (members : List Char) : ¬ WritesMembers limits ['\\'] members := by
  intro writes
  cases writes with
  | single ordinary unescaped noRange rest => exact unescaped rfl

/-- Pairs of backslashes at the front are elements of their own. -/
theorem of_pairs {pairs : Nat} {written members : List Char}
    (writes : WritesMembers limits (List.replicate (2 * pairs) '\\' ++ written) members) :
    ∃ later, WritesMembers limits written later ∧ later ⊆ members := by
  induction pairs generalizing members with
  | zero => exact ⟨members, writes, List.Subset.refl _⟩
  | succ pairs ih =>
      rw [Nat.mul_succ, List.replicate_succ, List.replicate_succ] at writes
      obtain ⟨behind, writesBehind, rfl⟩ := of_backslash writes
      obtain ⟨later, writesLater, among⟩ := ih writesBehind
      exact ⟨later, writesLater, List.subset_append_of_subset_right _ among⟩

/-- The first character is a member, unless it is a backslash. -/
theorem mem_of_ne_backslash {character : Char} {written members : List Char}
    (writes : WritesMembers limits (character :: written) members)
    (unescaped : character ≠ '\\') : character ∈ members := by
  cases writes with
  | escaped _ rest => exact absurd rfl unescaped
  | range firstOrdinary unescaped secondOrdinary expands rest =>
      exact List.mem_append_left _ (ends_mem_expandRange expands).1
  | single ordinary unescaped noRange rest => exact List.mem_cons_self

end WritesMembers

/-! ## Runs of backslashes -/

/-- What the first backslash of a run is, behind some text of a set. -/
inductive RunBegins (limits : Limits) (before behind members : List Char) : Prop where
  /-- It begins an element. -/
  | element {later : List Char} (writes : WritesMembers limits ('\\' :: behind) later)
      (among : later ⊆ members)
  /-- It is the second end of a range. -/
  | rangeEnd (ends : EndsRange limits before) (member : '\\' ∈ members)

/-- One more element in front changes nothing. -/
theorem RunBegins.cons (element added : List Char) {before behind members : List Char}
    (begins : RunBegins limits before behind members)
    (prepend : ∀ front, WritesMembers limits (before ++ ['\\']) front →
      WritesMembers limits (element ++ (before ++ ['\\'])) (added ++ front)) :
    RunBegins limits (element ++ before) behind (added ++ members) := by
  cases begins with
  | element writes among => exact .element writes (List.subset_append_of_subset_right _ among)
  | rangeEnd ends member =>
      obtain ⟨front, writes⟩ := ends
      refine .rangeEnd ⟨added ++ front, ?_⟩ (List.mem_append_right _ member)
      rw [List.append_assoc]
      exact prepend front writes

/-- Every run of backslashes among the members of a set begins in one of the two ways. -/
theorem WritesMembers.runBegins {before behind members : List Char}
    (writes : WritesMembers limits (before ++ '\\' :: behind) members)
    (runStarts : before.getLast? ≠ some '\\') : RunBegins limits before behind members := by
  have startsLater (element : List Char) {before : List Char}
      (runStarts : (element ++ before).getLast? ≠ some '\\') : before.getLast? ≠ some '\\' :=
    mt List.mem_getLast?_append_of_mem_getLast? runStarts
  generalize whole : before ++ '\\' :: behind = text at writes
  induction writes generalizing before with
  | nil => simp at whole
  | escaped character rest ih =>
      match before with
      | [] =>
          cases whole
          exact .element (.escaped character rest) (List.Subset.refl _)
      | [_] =>
          cases whole
          exact absurd rfl runStarts
      | _ :: _ :: before =>
          cases whole
          have later := ih (startsLater ['\\', character] runStarts) rfl
          exact later.cons ['\\', character] (escapedMembers character) fun front writes =>
            .escaped character writes
  | @range first second range written members firstOrdinary unescaped secondOrdinary expands rest
      ih =>
      match before with
      | [] =>
          cases whole
          exact absurd rfl unescaped
      | [_] => cases whole
      | [_, _] =>
          cases whole
          exact .rangeEnd ⟨_, .range firstOrdinary unescaped secondOrdinary expands .nil⟩
            (List.mem_append_left _ (ends_mem_expandRange expands).2)
      | _ :: _ :: _ :: before =>
          cases whole
          have later := ih (startsLater [first, '-', second] runStarts) rfl
          exact later.cons [first, '-', second] range fun front writes =>
            .range firstOrdinary unescaped secondOrdinary expands writes
  | @single character written members ordinary unescaped noRange rest ih =>
      match before with
      | [] =>
          cases whole
          exact absurd rfl unescaped
      | _ :: before =>
          cases whole
          have later := ih (startsLater [character] runStarts) rfl
          have stillNoRange : (before ++ ['\\']).head? ≠ some '-' := by
            cases before with
            | nil => simp
            | cons next tail => exact noRange
          exact later.cons [character] [character] fun front writes =>
            .single ordinary unescaped stillNoRange writes

/-- Elements that end with a backslash stay what they are in front of any rest. -/
theorem WritesMembers.exists_later {front rest earlier members : List Char}
    (writesFront : WritesMembers limits front earlier)
    (ends : ∀ last ∈ front.getLast?, last = '\\')
    (writes : WritesMembers limits (front ++ rest) members) :
    ∃ later, WritesMembers limits rest later ∧ members = earlier ++ later := by
  have read := readMembers_complete writes []
  rw [List.append_assoc, readMembers_append writesFront fun _ => ends] at read
  obtain ⟨⟨later, after⟩, readLater, pair⟩ := Reading.map_eq_ok_iff.mp read
  cases pair
  obtain ⟨written, same, writesLater⟩ := readMembers_sound readLater
  obtain rfl := List.append_cancel_right same
  exact ⟨later, writesLater, rfl⟩

/-- The second end of a range is a member, and reading goes on right behind it. -/
theorem EndsRange.exists_later {before rest members : List Char}
    (ends : EndsRange limits before) (runStarts : before.getLast? ≠ some '\\')
    (writes : WritesMembers limits (before ++ '\\' :: rest) members) :
    '\\' ∈ members ∧ ∃ later, WritesMembers limits rest later ∧ later ⊆ members := by
  obtain ⟨front, writesFront⟩ := ends
  have member : '\\' ∈ front := by
    cases writesFront.runBegins runStarts with
    | element writesAlone among => exact absurd writesAlone (WritesMembers.not_backslash _)
    | rangeEnd ends member => exact member
  rw [List.append_cons] at writes
  obtain ⟨later, writesLater, rfl⟩ := writesFront.exists_later (by simp) writes
  exact ⟨List.mem_append_left _ member, later, writesLater, List.subset_append_right _ _⟩

/-! ## Patterns for one set -/

/-- A repetition is written by nothing at all or up to a closing brace. -/
theorem WritesRepetition.once_or_exists_concat {written : List Char} {repetition : Repetition}
    (repeats : WritesRepetition limits written repetition) :
    written = [] ∧ repetition = .once ∨ ∃ front, written = front ++ ['\x7d'] := by
  cases repeats with
  | once => exact .inl ⟨rfl, rfl⟩
  | exactly digits fits allowed => exact .inr ⟨_, rfl⟩
  | between lowerDigits parted upperDigits named ordered fits allowed => exact .inr ⟨_, rfl⟩

/-- Brackets around a text make one set exactly when the text writes its members. -/
theorem parse_eq_ok_set_iff {body members : List Char} {repetition : Repetition} :
    parse limits ('[' :: body ++ [']']) = .ok (.sequence [.characterSet members repetition]) ↔
      body ≠ [] ∧ WritesMembers limits body members ∧ repetition = .once := by
  have single := @parse_eq_ok_leaf_iff limits ('[' :: body ++ [']'])
    (.characterSet members repetition) rfl nofun
  rw [single]
  constructor
  · intro writes
    generalize whole : '[' :: body ++ [']'] = pattern at writes
    cases writes with
    | @characterSet written _ quantifier rest _ _ writes notEmpty repeats later =>
        cases later
        have same : body ++ [']'] = written ++ ']' :: quantifier := by simpa using whole
        rcases repeats.once_or_exists_concat with ⟨rfl, rfl⟩ | ⟨front, rfl⟩
        · obtain rfl := List.append_cancel_right same
          exact ⟨notEmpty, writes, rfl⟩
        · -- A quantifier would be the end of the pattern, and that is a bracket.
          rw [← List.cons_append, ← List.append_assoc] at same
          have sameEnd := congrArg List.getLast? same
          rw [List.getLast?_concat, List.getLast?_concat] at sameEnd
          cases sameEnd
  · rintro ⟨notEmpty, writes, rfl⟩
    simpa using WritesTokens.characterSet writes notEmpty .once .nil

/--
In the brackets of a set every backslash that no other backslash escapes begins an escape: the
class that is named behind it is among the members, or else the character behind it.  If instead
the run of backslashes stands at the second end of a range, the backslash and the character behind
it are members themselves.
-/
theorem escape_of_backslash {body before behind members : List Char} {repetition : Repetition}
    {pairs : Nat} {next : Char}
    (read : parse limits ('[' :: body ++ [']']) =
      .ok (.sequence [.characterSet members repetition]))
    (parts : body = before ++ List.replicate (2 * pairs) '\\' ++ '\\' :: next :: behind)
    (runStarts : before.getLast? ≠ some '\\') :
    (¬ EndsRange limits before →
      (∀ code, ClassCode.ofLetter? next = some code → code.members ⊆ members) ∧
        (ClassCode.ofLetter? next = none → next ∈ members)) ∧
      (EndsRange limits before → '\\' ∈ members ∧ next ∈ members) := by
  obtain ⟨-, writes, -⟩ := parse_eq_ok_set_iff.mp read
  -- The run can be told from its first backslash on and from its last one on.
  have run : List.replicate (2 * pairs) '\\' ++ '\\' :: next :: behind =
      '\\' :: (List.replicate (2 * pairs) '\\' ++ next :: behind) := by
    rw [List.append_cons, ← List.replicate_succ', List.replicate_succ, List.cons_append]
  rw [parts, List.append_assoc, run] at writes
  constructor
  · intro noRange
    cases writes.runBegins runStarts with
    | rangeEnd ends member => exact absurd ends noRange
    | element writesRun amongRun =>
        rw [← run] at writesRun
        obtain ⟨last, writesLast, amongLast⟩ := writesRun.of_pairs
        obtain ⟨later, -, rfl⟩ := writesLast.of_backslash
        have among : escapedMembers next ⊆ members := fun character member =>
          amongRun (amongLast (List.mem_append_left _ member))
        rw [escapedMembers] at among
        constructor
        · intro code named
          rwa [named] at among
        · intro unnamed
          rw [unnamed] at among
          exact among List.mem_cons_self
  · intro ends
    obtain ⟨member, later, writesRun, amongRun⟩ := ends.exists_later runStarts writes
    obtain ⟨last, writesLast, amongLast⟩ := writesRun.of_pairs
    refine ⟨member, ?_⟩
    by_cases same : next = '\\'
    · rwa [same]
    · exact amongRun (amongLast (writesLast.mem_of_ne_backslash same))

/-- A hyphen that is escaped itself begins no range, and the last of three backslashes escapes. -/
theorem escape_of_third_backslash :
    let before := "+-/\\-".toList
    let body := "+-/\\-\\\\\\d".toList
    let members := "+,-./-\\0123456789".toList
    parse {} ('[' :: body ++ [']']) = .ok (.sequence [.characterSet members .once]) ∧
      body = before ++ List.replicate (2 * 1) '\\' ++ ['\\', 'd'] ∧
      before.getLast? ≠ some '\\' ∧ ¬ EndsRange {} before ∧
      ClassCode.ofLetter? 'd' = some .digit ∧ ClassCode.digit.members ⊆ members := by
  intro before body members
  have read : parse {} ('[' :: body ++ [']']) = .ok (.sequence [.characterSet members .once]) := by
    decide +kernel
  have parts : body = before ++ List.replicate (2 * 1) '\\' ++ ['\\', 'd'] := by decide
  have runStarts : before.getLast? ≠ some '\\' := by decide
  have noRange : ¬ EndsRange {} before := by
    rintro ⟨front, writes⟩
    have read := readMembers_complete writes []
    have failed : readMembers {} (before ++ ['\\'] ++ [']']) =
        .error ⟨.unterminatedClass, []⟩ := by
      decide +kernel
    rw [failed] at read
    cases read
  refine ⟨read, parts, runStarts, noRange, rfl, ?_⟩
  exact ((escape_of_backslash read parts runStarts).1 noRange).1 .digit rfl

/-- The same three backslashes behind a hyphen that begins a range: no digit is a member. -/
theorem no_escape_behind_range_end :
    let body := "a-\\\\\\d".toList
    let members := ['\\', ']', '^', '_', '\x60', 'a', '\\', 'd']
    parse {} ('[' :: body ++ [']']) = .ok (.sequence [.characterSet members .once]) ∧
      body = ['a', '-'] ++ List.replicate (2 * 1) '\\' ++ ['\\', 'd'] ∧
      ['a', '-'].getLast? ≠ some '\\' ∧
      ClassCode.ofLetter? 'd' = some .digit ∧ '0' ∈ ClassCode.digit.members ∧ '0' ∉ members := by
  decide +kernel

end TextTemplate
