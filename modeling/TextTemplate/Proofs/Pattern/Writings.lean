import Mathlib.Data.List.Basic
import TextTemplate.Pattern.Grammar

/-!
# Readers and writings

Every reader of the lower level takes off the front of a text exactly what the grammar calls
a writing of its value.  A reader is sound when the text that it takes off is a writing, and
complete when it takes off every writing that the rest does not go on with.
-/

namespace TextTemplate

/-! ## Literal text -/

theorem readLiteral_sound {text content after : List Char}
    (read : readLiteral text = .ok (content, after)) :
    ∃ written, text = written ++ after ∧ WritesLiteral written content ∧ EndsLiteral after := by
  fun_induction readLiteral text generalizing content after with
  | case1 =>
      cases read
      exact ⟨[], rfl, .nil, endsLiteral_nil⟩
  | case2 => cases read
  | case3 escaped rest ih =>
      obtain ⟨⟨later, behind⟩, same, pair⟩ := Reading.map_eq_ok_iff.mp read
      cases pair
      obtain ⟨written, rfl, writes, ends⟩ := ih same
      exact ⟨'\\' :: escaped :: written, rfl, .escaped escaped writes, ends⟩
  | case4 character rest _ _ structural =>
      cases read
      exact ⟨[], rfl, .nil, endsLiteral_cons_iff.mpr structural⟩
  | case5 character rest alone escapes ordinary ih =>
      obtain ⟨⟨later, behind⟩, same, pair⟩ := Reading.map_eq_ok_iff.mp read
      cases pair
      obtain ⟨written, rfl, writes, ends⟩ := ih same
      have unescaped : character ≠ '\\' := by
        rintro rfl
        cases written <;> cases after <;> simp_all
      exact ⟨character :: written, rfl, .plain (by simpa using ordinary) unescaped writes, ends⟩

theorem readLiteral_complete {written content after : List Char}
    (writes : WritesLiteral written content) (ends : EndsLiteral after) :
    readLiteral (written ++ after) = .ok (content, after) := by
  induction writes with
  | nil =>
      cases after with
      | nil => rfl
      | cons character tail =>
          have structural := endsLiteral_cons_iff.mp ends
          have unescaped := ne_backslash_of_isMeta structural
          simp [readLiteral, unescaped, structural]
  | plain ordinary unescaped rest ih => simp [readLiteral, ordinary, unescaped, ih, Except.map]
  | escaped character rest ih => simp [readLiteral, ih, Except.map]

/-- A backslash with nothing to take and a backslash that takes a character leave no other. -/
theorem ne_backslash_of_cases {character : Char} {rest : List Char}
    (alone : character = '\\' → rest = [] → False)
    (escapes : ∀ escaped tail, character = '\\' → rest = escaped :: tail → False) :
    character ≠ '\\' := by
  rintro rfl
  cases rest with
  | nil => exact alone rfl rfl
  | cons next tail => exact escapes next tail rfl rfl

/-! ## Members of a set -/

open CharacterSet

/-- A hyphen with nothing behind it and a hyphen of a range leave no other. -/
theorem head?_ne_hyphen_of_cases {rest : List Char} (pending : rest = ['-'] → False)
    (ranges : ∀ second tail, rest = '-' :: second :: tail → False) : rest.head? ≠ some '-' := by
  intro hyphen
  obtain ⟨tail, rfl⟩ := List.head?_eq_some_iff.mp hyphen
  cases tail with
  | nil => exact pending rfl
  | cons second tail => exact ranges second tail rfl

theorem readMembers_sound {limits : Limits} {text members after : List Char}
    (read : readMembers limits text = .ok (members, after)) :
    ∃ written, text = written ++ ']' :: after ∧ WritesMembers limits written members := by
  fun_induction readMembers limits text generalizing members after with
  | case1 => cases read
  | case2 behind =>
      cases read
      exact ⟨[], rfl, .nil⟩
  | case3 => cases read
  | case4 escaped rest ih =>
      obtain ⟨⟨later, behind⟩, same, pair⟩ := Reading.map_eq_ok_iff.mp read
      cases pair
      obtain ⟨written, rfl, writes⟩ := ih same
      exact ⟨'\\' :: escaped :: written, rfl, .escaped escaped writes⟩
  | case5 => cases read
  | case6 => cases read
  | case7 => cases read
  | case8 => cases read
  | case9 => cases read
  | case10 first second rest _ unescaped firstOrdinary secondOrdinary range expands ih =>
      obtain ⟨⟨later, behind⟩, same, pair⟩ := Reading.map_eq_ok_iff.mp read
      cases pair
      obtain ⟨written, rfl, writes⟩ := ih same
      rw [Bool.not_eq_true] at firstOrdinary secondOrdinary
      exact ⟨first :: '-' :: second :: written, rfl,
        .range firstOrdinary unescaped secondOrdinary expands writes⟩
  | case11 => cases read
  | case12 member rest _ alone escapes pending ranges ordinary ih =>
      obtain ⟨⟨later, behind⟩, same, pair⟩ := Reading.map_eq_ok_iff.mp read
      cases pair
      obtain ⟨written, rfl, writes⟩ := ih same
      rw [Bool.not_eq_true] at ordinary
      refine ⟨member :: written, rfl, .single ordinary ?_ ?_ writes⟩
      · rintro rfl
        cases written with
        | nil => exact escapes _ _ rfl rfl
        | cons next tail => exact escapes _ _ rfl rfl
      · intro hyphen
        cases written with
        | nil => cases hyphen
        | cons next tail =>
            cases hyphen
            cases tail with
            | nil => exact ranges _ _ rfl
            | cons second tail => exact ranges _ _ rfl

theorem addMembers_nil (reading : Reading (List Char)) : addMembers [] reading = reading := by
  cases reading <;> rfl

theorem addMembers_append (first second : List Char) (reading : Reading (List Char)) :
    addMembers (first ++ second) reading = addMembers first (addMembers second reading) := by
  cases reading <;> simp [addMembers, Except.map]

/--
Members are read in front of any rest.  Only a hyphen could make the last of them begin a range,
but not if that is a backslash.
-/
theorem readMembers_append {limits : Limits} {written members rest : List Char}
    (writes : WritesMembers limits written members)
    (apart : rest.head? = some '-' → ∀ last ∈ written.getLast?, last = '\\') :
    readMembers limits (written ++ rest) = addMembers members (readMembers limits rest) := by
  have apartLater (element : List Char) {later : List Char}
      (apart : rest.head? = some '-' → ∀ last ∈ (element ++ later).getLast?, last = '\\') :
      rest.head? = some '-' → ∀ last ∈ later.getLast?, last = '\\' := by
    intro hyphen last isLast
    exact apart hyphen last (List.mem_getLast?_append_of_mem_getLast? isLast)
  induction writes with
  | nil => exact (addMembers_nil _).symm
  | escaped character writes ih =>
      rw [addMembers_append, ← ih (apartLater ['\\', character] apart)]
      simp [readMembers]
  | @range first second _ _ _ firstOrdinary unescaped secondOrdinary expands writes ih =>
      rw [addMembers_append, ← ih (apartLater [first, '-', second] apart)]
      exact readMembers_range firstOrdinary unescaped secondOrdinary expands _
  | @single character written members ordinary unescaped noRange writes ih =>
      have stillNoRange : (written ++ rest).head? ≠ some '-' := by
        cases written with
        | nil => exact fun hyphen => unescaped (apart hyphen character rfl)
        | cons next tail => exact noRange
      have added : character :: members = [character] ++ members := rfl
      rw [added, addMembers_append, ← ih (apartLater [character] apart)]
      exact readMembers_single ordinary unescaped stillNoRange

theorem readMembers_complete {limits : Limits} {written members : List Char}
    (writes : WritesMembers limits written members) (after : List Char) :
    readMembers limits (written ++ ']' :: after) = .ok (members, after) := by
  rw [readMembers_append writes (by simp)]
  simp [readMembers, addMembers, Except.map]

/-! ## Repetitions -/

/-- What a run of characters and the end of the run leave of a text. -/
theorem eq_takeWhile_append {holds : Char → Bool} {text rest : List Char} {stop : Char}
    (same : text.dropWhile holds = stop :: rest) :
    text = text.takeWhile holds ++ stop :: rest := by
  rw [← same, List.takeWhile_append_dropWhile]

theorem takeWhile_run {holds : Char → Bool} {run : List Char} {stop : Char}
    (inRun : ∀ character ∈ run, holds character = true) (stops : holds stop = false)
    (rest : List Char) : (run ++ stop :: rest).takeWhile holds = run := by
  rw [List.takeWhile_append_of_pos inRun, List.takeWhile_cons_of_neg (by simp [stops]),
    List.append_nil]

theorem dropWhile_run {holds : Char → Bool} {run : List Char} {stop : Char}
    (inRun : ∀ character ∈ run, holds character = true) (stops : holds stop = false)
    (rest : List Char) : (run ++ stop :: rest).dropWhile holds = stop :: rest := by
  rw [List.dropWhile_append_of_pos inRun, List.dropWhile_cons_of_neg (by simp [stops])]

theorem writesNumber_takeWhile (text : List Char) :
    WritesNumber (text.takeWhile Char.isDigit)
      (Nat.ofDigitChars 10 (text.takeWhile Char.isDigit) 0) := by
  refine ⟨?_, rfl⟩
  exact List.all_eq_true.mp List.all_takeWhile

theorem isSeparator_iff {character : Char} :
    isSeparator character = true ↔ character = ':' ∨ character = '-' := by
  simp [isSeparator]

namespace Quantifier

theorem readUpper_sound {limits : Limits} {low : Nat} {text after : List Char}
    {repetition : Repetition} (read : readUpper limits low text = .ok (repetition, after)) :
    ∃ upper high, text = upper ++ '\x7d' :: after ∧ WritesNumber upper high ∧ upper ≠ [] ∧
      low ≤ high ∧ high < wordSize ∧ high ≤ limits.maxRepeat ∧
      repetition = .between low high := by
  unfold readUpper at read
  dsimp only at read
  split at read
  · cases read
  · next behind same =>
      split at read
      · cases read
      · next named =>
          obtain ⟨high, bounded, ordered⟩ := Reading.bind_eq_ok_iff.mp read
          obtain ⟨rfl, fits, allowed⟩ := upperBound_eq_ok_iff.mp bounded
          split at ordered
          · cases ordered
          · next inOrder =>
              cases ordered
              exact ⟨text.takeWhile Char.isDigit, _, eq_takeWhile_append same,
                writesNumber_takeWhile text, by simpa using named, Nat.le_of_not_lt inOrder,
                fits, allowed, rfl⟩
  · split at read <;> cases read

theorem readUpper_run {limits : Limits} {low : Nat} {digits : List Char} {stop : Char}
    (inRun : ∀ digit ∈ digits, digit.isDigit = true) (stops : stop.isDigit = false)
    (after : List Char) :
    readUpper limits low (digits ++ stop :: after) =
      if stop = '\x7d' then
        if digits.isEmpty then .error ⟨.missingUpperBound, stop :: after⟩
        else
          (upperBound limits digits (stop :: after)).bind fun high =>
            if high < low then .error ⟨.boundsReversed low high, stop :: after⟩
            else .ok (.between low high, after)
      else if isSeparator stop then .error ⟨.secondSeparator, stop :: after⟩
      else .error ⟨.nonDigit stop, stop :: after⟩ := by
  unfold readUpper
  rw [takeWhile_run inRun stops, dropWhile_run inRun stops]
  by_cases closes : stop = '\x7d'
  · subst closes
    rfl
  · simp [closes]

theorem readUpper_complete {limits : Limits} {low high : Nat} {upper : List Char}
    (digits : WritesNumber upper high) (named : upper ≠ []) (ordered : low ≤ high)
    (fits : high < wordSize) (allowed : high ≤ limits.maxRepeat) (after : List Char) :
    readUpper limits low (upper ++ '\x7d' :: after) = .ok (.between low high, after) := by
  have bounded (remaining : List Char) : upperBound limits upper remaining = .ok high :=
    upperBound_eq_ok_iff.mpr ⟨digits.2, fits, allowed⟩
  rw [readUpper_run digits.1 rfl]
  simp [named, bounded, Except.bind, Nat.not_lt.mpr ordered]

end Quantifier

open Quantifier

theorem readQuantifier_sound {limits : Limits} {text after : List Char}
    {repetition : Repetition} (read : readQuantifier limits text = .ok (repetition, after)) :
    ∃ written, '\x7b' :: text = written ++ after ∧
      WritesRepetition limits written repetition := by
  unfold readQuantifier at read
  dsimp only at read
  split at read
  · cases read
  · next behind same =>
      obtain ⟨count, bounded, pair⟩ := Reading.map_eq_ok_iff.mp read
      cases pair
      obtain ⟨rfl, fits, allowed⟩ := upperBound_eq_ok_iff.mp bounded
      refine ⟨_, ?_, .exactly (writesNumber_takeWhile text) fits allowed⟩
      conv => lhs; rw [eq_takeWhile_append same]
      simp
  · next separator behind _ same =>
      split at read
      · next parted =>
          obtain ⟨low, lower, rest⟩ := Reading.bind_eq_ok_iff.mp read
          obtain ⟨rfl, _⟩ := number_eq_ok_iff.mp lower
          obtain ⟨upper, high, rfl, digits, named, ordered, fits, allowed, rfl⟩ :=
            readUpper_sound rest
          refine ⟨_, ?_, .between (writesNumber_takeWhile text) parted digits named ordered
            fits allowed⟩
          conv => lhs; rw [eq_takeWhile_append same]
          simp
      · cases read

theorem readQuantifier_run {limits : Limits} {digits : List Char} {stop : Char}
    (inRun : ∀ digit ∈ digits, digit.isDigit = true) (stops : stop.isDigit = false)
    (after : List Char) :
    readQuantifier limits (digits ++ stop :: after) =
      if stop = '\x7d' then
        (upperBound limits digits (stop :: after)).map fun count => (.exactly count, after)
      else if isSeparator stop then
        (number digits (stop :: after)).bind fun low => readUpper limits low after
      else .error ⟨.nonDigit stop, stop :: after⟩ := by
  unfold readQuantifier
  rw [takeWhile_run inRun stops, dropWhile_run inRun stops]
  by_cases closes : stop = '\x7d'
  · subst closes
    rfl
  · simp [closes]

theorem readRepetition_sound {limits : Limits} {text after : List Char}
    {repetition : Repetition} (read : readRepetition limits text = .ok (repetition, after)) :
    ∃ written, text = written ++ after ∧ WritesRepetition limits written repetition := by
  unfold readRepetition at read
  split at read
  · exact readQuantifier_sound read
  · cases read
    exact ⟨[], rfl, .once⟩

/-- A set without a quantifier must not be followed by what begins one. -/
theorem readRepetition_complete {limits : Limits} {written after : List Char}
    {repetition : Repetition} (repeats : WritesRepetition limits written repetition)
    (noBrace : after.head? ≠ some '\x7b') :
    readRepetition limits (written ++ after) = .ok (repetition, after) := by
  cases repeats with
  | once =>
      unfold readRepetition
      split
      · next same =>
          rw [List.nil_append] at same
          rw [same] at noBrace
          exact absurd rfl noBrace
      · rfl
  | @exactly digits count writes fits allowed =>
      have bounded (remaining : List Char) : upperBound limits digits remaining = .ok count :=
        upperBound_eq_ok_iff.mpr ⟨writes.2, fits, allowed⟩
      simp only [List.cons_append, List.append_assoc, List.nil_append, readRepetition]
      rw [readQuantifier_run writes.1 rfl, if_pos rfl, bounded]
      rfl
  | @between lower upper separator low high lowerDigits parted upperDigits named ordered fits
      allowed =>
      have begun (remaining : List Char) : number lower remaining = .ok low :=
        number_eq_ok_iff.mpr ⟨lowerDigits.2, Nat.lt_of_le_of_lt ordered fits⟩
      have rest := readUpper_complete upperDigits named ordered fits allowed after
      simp only [List.cons_append, List.append_assoc, List.nil_append, readRepetition]
      rcases isSeparator_iff.mp parted with rfl | rfl
      · rw [readQuantifier_run lowerDigits.1 rfl]
        simp [isSeparator, begun, rest, Except.bind]
      · rw [readQuantifier_run lowerDigits.1 rfl]
        simp [isSeparator, begun, rest, Except.bind]

/-! ## Leaves -/

theorem readCharacterSet_sound {limits : Limits} {text after : List Char} {node : Node}
    (read : readCharacterSet limits text = .ok (node, after)) :
    ∃ written members quantifier repetition,
      text = written ++ ']' :: quantifier ++ after ∧ WritesMembers limits written members ∧
      written ≠ [] ∧ WritesRepetition limits quantifier repetition ∧
      node = .characterSet members repetition := by
  unfold readCharacterSet at read
  obtain ⟨⟨members, behind⟩, within, rest⟩ := Reading.bind_eq_ok_iff.mp read
  obtain ⟨written, rfl, writes⟩ := readMembers_sound within
  dsimp only at rest
  split at rest
  · cases rest
  · next notEmpty =>
      obtain ⟨⟨repetition, later⟩, repeated, pair⟩ := Reading.map_eq_ok_iff.mp rest
      cases pair
      obtain ⟨quantifier, rfl, repeats⟩ := readRepetition_sound repeated
      refine ⟨written, members, quantifier, repetition, by simp, writes, ?_, repeats, rfl⟩
      intro nothing
      rw [← writes.members_eq_nil_iff] at nothing
      exact notEmpty (by simp [nothing])

theorem readCharacterSet_complete {limits : Limits} {written members quantifier after : List Char}
    {repetition : Repetition} (writes : WritesMembers limits written members)
    (notEmpty : written ≠ []) (repeats : WritesRepetition limits quantifier repetition)
    (noBrace : after.head? ≠ some '\x7b') :
    readCharacterSet limits (written ++ ']' :: quantifier ++ after) =
      .ok (.characterSet members repetition, after) := by
  have within := readMembers_complete writes (quantifier ++ after)
  have repeated := readRepetition_complete repeats noBrace
  have someMember : members ≠ [] := mt writes.members_eq_nil_iff.mp notEmpty
  rw [List.append_assoc, List.cons_append]
  simp [readCharacterSet, within, repeated, someMember, Except.bind, Except.map]

theorem mem_takeWhile_ne {stop : Char} (text : List Char) :
    stop ∉ text.takeWhile (· != stop) := by
  intro within
  have differs := List.all_eq_true.mp List.all_takeWhile stop within
  simp at differs

theorem readReference_sound {text name after : List Char}
    (read : readReference text = .ok (name, after)) :
    text = name ++ '\x7d' :: after ∧ '\x7d' ∉ name ∧ isIdentifier name = true := by
  unfold readReference at read
  dsimp only at read
  split at read
  · cases read
  · next closing behind same =>
      split at read
      · next valid =>
          cases read
          have stop : closing = '\x7d' := by
            have nonempty : text.dropWhile (· != '\x7d') ≠ [] := by simp [same]
            have stops := List.head_dropWhile_not (· != '\x7d') nonempty
            simpa [same] using stops
          subst stop
          exact ⟨eq_takeWhile_append same, mem_takeWhile_ne text, valid⟩
      · cases read

theorem readReference_run {name : List Char} {stop : Char}
    (inName : ∀ character ∈ name, (character != '\x7d') = true)
    (stops : (stop != '\x7d') = false) (after : List Char) :
    readReference (name ++ stop :: after) =
      if isIdentifier name then .ok (name, after)
      else .error ⟨.badIdentifier name, stop :: after⟩ := by
  unfold readReference
  rw [takeWhile_run inName stops, dropWhile_run inName stops]

theorem readReference_complete {name : List Char} (unbraced : '\x7d' ∉ name)
    (valid : isIdentifier name = true) (after : List Char) :
    readReference (name ++ '\x7d' :: after) = .ok (name, after) := by
  have inName : ∀ character ∈ name, (character != '\x7d') = true := by
    intro character member
    simp only [bne_iff_ne, ne_eq]
    rintro rfl
    exact unbraced member
  rw [readReference_run inName rfl, if_pos valid]

/-! ## Tokens -/

/-- Literal text that is not empty begins with an ordinary character. -/
theorem WritesLiteral.exists_ordinary {written text : List Char}
    (writes : WritesLiteral written text) (notEmpty : written ≠ []) :
    ∃ first rest, written = first :: rest ∧ isMeta first = false := by
  cases writes with
  | nil => exact absurd rfl notEmpty
  | @plain character written _ ordinary unescaped rest => exact ⟨character, written, rfl, ordinary⟩
  | @escaped written _ character rest =>
      exact ⟨'\\', character :: written, rfl, isMeta_backslash⟩

theorem isMeta_symbol (operator : Operator) : isMeta operator.symbol = true := by
  cases operator <;> rfl

/-- No token begins like a quantifier. -/
theorem WritesTokens.head?_ne_brace {limits : Limits} {written : List Char}
    {tokens : List Token} (writes : WritesTokens limits written tokens) :
    written.head? ≠ some '\x7b' := by
  cases writes with
  | literal writes notEmpty ends later =>
      obtain ⟨first, rest, rfl, ordinary⟩ := writes.exists_ordinary notEmpty
      rintro ⟨⟩
      cases ordinary
  | operator operator later => cases operator <;> simp [Operator.symbol]
  | _ => simp

/--
The text of a token that was read writes the token in front of all other writings too, if these
end literal text wherever the text that was behind the token ended it.
-/
theorem exists_front_of_readToken {limits : Limits} {first : Char} {rest after : List Char}
    {token : Token} (read : readToken limits first rest = .ok (token, after)) :
    ∃ front, first :: rest = front ++ after ∧ ∀ behind tokens,
      (EndsLiteral after → EndsLiteral behind) → WritesTokens limits behind tokens →
        WritesTokens limits (front ++ behind) (token :: tokens) := by
  unfold readToken at read
  split at read
  · next text =>
      obtain ⟨⟨node, behind⟩, same, pair⟩ := Reading.map_eq_ok_iff.mp read
      cases pair
      obtain ⟨written, members, quantifier, repetition, rfl, writes, notEmpty, repeats, rfl⟩ :=
        readCharacterSet_sound same
      refine ⟨'[' :: written ++ ']' :: quantifier, by simp, fun behind tokens _ later => ?_⟩
      exact .characterSet writes notEmpty repeats later
  · cases read
    exact ⟨['('], rfl, fun behind tokens _ later => .openGroup later⟩
  · cases read
    exact ⟨[')'], rfl, fun behind tokens _ later => .closeGroup later⟩
  · cases read
    exact ⟨['|'], rfl, fun behind tokens _ later => .operator .alternate later⟩
  · cases read
    exact ⟨['&'], rfl, fun behind tokens _ later => .operator .permute later⟩
  · next text =>
      obtain ⟨⟨name, behind⟩, same, pair⟩ := Reading.map_eq_ok_iff.mp read
      cases pair
      obtain ⟨rfl, unbraced, valid⟩ := readReference_sound same
      refine ⟨'$' :: '\x7b' :: name ++ ['\x7d'], by simp, fun behind tokens _ later => ?_⟩
      simpa using WritesTokens.reference unbraced valid later
  · split at read
    · cases read
    · next ordinary =>
        obtain ⟨⟨content, behind⟩, same, pair⟩ := Reading.map_eq_ok_iff.mp read
        cases pair
        obtain ⟨written, whole, writes, ends⟩ := readLiteral_sound same
        have notEmpty : written ≠ [] := by
          rintro rfl
          rw [List.nil_append] at whole
          rw [← whole] at ends
          exact ordinary (endsLiteral_cons_iff.mp ends)
        exact ⟨written, whole, fun behind tokens stillEnds later =>
          .literal writes notEmpty (stillEnds ends) later⟩

/-- A token that was read, in front of a writing of the tokens behind it. -/
theorem readToken_sound {limits : Limits} {first : Char} {rest after : List Char}
    {token : Token} {tokens : List Token}
    (read : readToken limits first rest = .ok (token, after))
    (later : WritesTokens limits after tokens) :
    WritesTokens limits (first :: rest) (token :: tokens) := by
  obtain ⟨front, same, writes⟩ := exists_front_of_readToken read
  rw [same]
  exact writes after tokens id later

/-- The first of some written tokens is what is read off their writing. -/
theorem readToken_complete {limits : Limits} {written : List Char} {token : Token}
    {tokens : List Token} (writes : WritesTokens limits written (token :: tokens)) :
    ∃ first rest after, written = first :: rest ∧
      readToken limits first rest = .ok (token, after) ∧ WritesTokens limits after tokens := by
  cases writes with
  | @literal written text after _ writes notEmpty ends later =>
      have read := readLiteral_complete writes ends
      obtain ⟨first, rest, rfl, ordinary⟩ := writes.exists_ordinary notEmpty
      refine ⟨first, rest ++ after, after, rfl, ?_, later⟩
      rw [List.cons_append] at read
      rw [readToken_of_ordinary limits _ ordinary, read]
      rfl
  | @characterSet written members quantifier after repetition _ writes notEmpty repeats later =>
      have read := readCharacterSet_complete writes notEmpty repeats later.head?_ne_brace
      refine ⟨'[', written ++ ']' :: quantifier ++ after, after, by simp, ?_, later⟩
      simp only [readToken, read, Except.map]
  | @reference name after _ unbraced valid later =>
      have read := readReference_complete unbraced valid after
      refine ⟨'$', '\x7b' :: name ++ '\x7d' :: after, after, by simp, ?_, later⟩
      simp only [List.cons_append, readToken, read, Except.map]
  | openGroup later => exact ⟨_, _, _, rfl, rfl, later⟩
  | closeGroup later => exact ⟨_, _, _, rfl, rfl, later⟩
  | operator operator later =>
      refine ⟨_, _, _, rfl, ?_, later⟩
      cases operator <;> rfl

end TextTemplate
