import TextTemplate.Proofs.Pattern.Writings
import TextTemplate.Proofs.Scanner.Places

/-!
# Scanning leaves

Every routine for a leaf of a pattern does with the cursor what the reading of the leaf does with
the rest of the pattern.
-/

namespace TextTemplate

open CharacterSet Cursor Reading

namespace Scan

variable {limits : Limits} {pattern text rest : List Char} {first : Char}

/-! ## Literal text -/

theorem readLiteral_of_ends (ends : EndsLiteral rest) : readLiteral rest = .ok ([], rest) :=
  readLiteral_complete .nil ends

/-- A loop over literal text, given what its next round does. -/
theorem rounds_of_literalStep {before taken : List Char} {cursor : Cursor}
    (within : rest <:+ pattern) (enters : (Cursor.before pattern rest).unread ≤ cursor.unread)
    (takes : literalRound before cursor = literalStep taken (.before pattern rest))
    (goesOn : ∀ next tail, rest = next :: tail → isMeta next = false →
      rounds literalRound taken (.before pattern tail) =
        ((readLiteral rest).mapValue (taken ++ ·)).scan pattern) :
    rounds literalRound before cursor =
      ((readLiteral rest).mapValue (taken ++ ·)).scan pattern := by
  rw [literalStep, next?_before within] at takes
  cases rest with
  | nil =>
      rw [rounds_done takes, readLiteral_of_ends endsLiteral_nil]
      simp [mapValue, Except.map, Reading.scan]
  | cons next tail =>
      rw [List.head?_cons] at takes
      by_cases structural : isMeta next = true
      · simp only [structural, if_true] at takes
        rw [rounds_done takes, readLiteral_of_ends (endsLiteral_cons_iff.mpr structural)]
        simp [mapValue, Except.map, Reading.scan]
      · simp only [structural] at takes
        rw [if_neg Bool.false_ne_true, advance_before within] at takes
        have moves := unread_lt_unread within (.trans (List.suffix_cons ..) within)
          (Nat.lt_succ_self tail.length)
        rw [rounds_again takes (Nat.lt_of_lt_of_le moves enters)]
        exact goesOn next tail rfl (Bool.not_eq_true _ ▸ structural)

theorem readLiteral_escaped (escaped : Char) (rest : List Char) :
    readLiteral ('\\' :: escaped :: rest) = (readLiteral rest).mapValue (escaped :: ·) := by
  rw [readLiteral]
  rfl

theorem readLiteral_plain (ordinary : isMeta first = false) (unescaped : first ≠ '\\')
    (rest : List Char) :
    readLiteral (first :: rest) = (readLiteral rest).mapValue (first :: ·) := by
  simp [readLiteral, ordinary, unescaped, mapValue]

/-- The loop over literal text takes what is read as literal text. -/
theorem rounds_literalRound {first : Char} {rest : List Char} (ordinary : isMeta first = false)
    (taken : List Char) (within : first :: rest <:+ pattern) :
    rounds literalRound taken (.before pattern rest) =
      ((readLiteral (first :: rest)).mapValue (taken ++ ·)).scan pattern := by
  have behind := (List.suffix_cons first rest).trans within
  have current := current?_before within
  by_cases escapes : first = '\\'
  · subst escapes
    cases rest with
    | nil =>
        apply rounds_error
        rw [literalRound, current]
        simp only
        rw [current?_advance_before behind]
        rfl
    | cons escaped rest =>
        -- What is behind the escaped character decides, so the loop goes on two places further.
        have later := (List.suffix_cons escaped rest).trans behind
        have takes : literalRound taken (.before pattern (escaped :: rest)) =
            literalStep (taken ++ [escaped]) (.before pattern rest) := by
          rw [literalRound, current]
          simp only
          rw [current?_advance_before behind, advance_before behind]
          rfl
        have enters := unread_lt_unread behind later (Nat.lt_succ_self rest.length)
        rw [rounds_of_literalStep later (Nat.le_of_lt enters) takes, readLiteral_escaped,
          mapValue_mapValue]
        · simp
        · rintro next tail rfl goesOn
          exact rounds_literalRound goesOn (taken ++ [escaped]) later
  · have takes : literalRound taken (.before pattern rest) =
        literalStep (taken ++ [first]) (.before pattern rest) := by
      rw [literalRound, current]
      simp
    rw [rounds_of_literalStep behind (Nat.le_refl _) takes, readLiteral_plain ordinary escapes,
      mapValue_mapValue]
    · simp
    · rintro next tail rfl goesOn
      exact rounds_literalRound goesOn (taken ++ [first]) behind
termination_by rest.length

theorem literal_before (ordinary : isMeta first = false) (within : first :: rest <:+ pattern) :
    literal (.before pattern rest) =
      ((readLiteral (first :: rest)).mapValue .literal).scan pattern := by
  rw [literal, rounds_literalRound ordinary [] within, scan_mapValue, scan_mapValue]
  rcases readLiteral (first :: rest) with failure | ⟨text, after⟩ <;> rfl

/-! ## Quantifiers -/

/-- A number that is too large is noticed on the character behind it. -/
theorem number_before (digits : List Char) (within : first :: rest <:+ pattern) :
    number digits (.before pattern rest) =
      (Quantifier.number digits (first :: rest)).mapError (·.stop pattern) := by
  unfold number Quantifier.number
  simp only
  split
  · rfl
  · rw [Except.mapError, Failure.stop_cons _ within]

theorem isSeparator_eq_false_of_isDigit (isDigit : first.isDigit = true) :
    isSeparator first = false := by
  rw [Bool.eq_false_iff, Ne, isSeparator_iff]
  rintro (rfl | rfl) <;> cases isDigit

section Rounds

variable (low? : Option Nat) (digits : List Char)

theorem rounds_digit (isDigit : first.isDigit = true) (within : first :: rest <:+ pattern) :
    rounds quantifierRound (low?, digits) (.before pattern (first :: rest)) =
      rounds quantifierRound (low?, digits ++ [first]) (.before pattern rest) := by
  have behind := (List.suffix_cons first rest).trans within
  have noClosing : first ≠ '\x7d' := by
    rintro rfl
    cases isDigit
  refine rounds_again ?_ (unread_lt_unread within behind (Nat.lt_succ_self _))
  rw [quantifierRound, advance_before within, current?_before within]
  simp [isSeparator_eq_false_of_isDigit isDigit, isDigit]

/-- A separator ends the first number, and there is only one. -/
theorem rounds_separator (separates : isSeparator first = true)
    (within : first :: rest <:+ pattern) :
    rounds quantifierRound (low?, digits) (.before pattern (first :: rest)) =
      if low?.isSome then .error (Failure.stop ⟨.secondSeparator, first :: rest⟩ pattern)
      else
        ((Quantifier.number digits (first :: rest)).mapError (·.stop pattern)).bind fun low =>
          rounds quantifierRound (some low, []) (.before pattern rest) := by
  have behind := (List.suffix_cons first rest).trans within
  have moves := unread_lt_unread within behind (Nat.lt_succ_self _)
  have noClosing : first ≠ '\x7d' := by
    rintro rfl
    cases separates
  have round : quantifierRound (low?, digits) (.before pattern (first :: rest)) =
      if low?.isSome then refuse .secondSeparator (.before pattern rest)
      else (number digits (.before pattern rest)).map fun low =>
        (.again (some low, []), .before pattern rest) := by
    rw [quantifierRound, advance_before within, current?_before within]
    simp [separates]
  rw [number_before _ within] at round
  split
  · next again =>
      rw [if_pos again] at round
      rw [rounds_error round, Failure.stop_cons _ within]
  · next once =>
      rw [if_neg once] at round
      cases read : Quantifier.number digits (first :: rest) with
      | error failure =>
          rw [read] at round
          exact rounds_error round
      | ok low =>
          rw [read] at round
          exact rounds_again round moves

/-- The last bound is missing if a separator stands right in front of the closing brace. -/
theorem rounds_closing (within : '\x7d' :: rest <:+ pattern) :
    rounds quantifierRound (low?, digits) (.before pattern ('\x7d' :: rest)) =
      if (Cursor.before pattern ('\x7d' :: rest)).current?.any isSeparator then
        .error (Failure.stop ⟨.missingUpperBound, '\x7d' :: rest⟩ pattern)
      else .ok ((low?, digits), .before pattern rest) := by
  have previous := previous?_advance (room_before pattern ('\x7d' :: rest))
  rw [advance_before within] at previous
  have round : quantifierRound (low?, digits) (.before pattern ('\x7d' :: rest)) =
      if (Cursor.before pattern ('\x7d' :: rest)).current?.any isSeparator then
        refuse .missingUpperBound (.before pattern rest)
      else .ok (.done (low?, digits), .before pattern rest) := by
    rw [quantifierRound, advance_before within, current?_before within, ← previous]
    rfl
  split
  · next missing =>
      rw [if_pos missing] at round
      rw [rounds_error round, Failure.stop_cons _ within]
  · next written =>
      rw [if_neg written] at round
      exact rounds_done round

theorem rounds_nonDigit (noDigit : first.isDigit = false) (noClosing : first ≠ '\x7d')
    (noSeparator : isSeparator first = false) (within : first :: rest <:+ pattern) :
    rounds quantifierRound (low?, digits) (.before pattern (first :: rest)) =
      .error (Failure.stop ⟨.nonDigit first, first :: rest⟩ pattern) := by
  rw [Failure.stop_cons _ within]
  apply rounds_error
  rw [quantifierRound, advance_before within, current?_before within]
  simp [noSeparator, noDigit, refuse]

end Rounds

/-- Digits are gathered without a look at the bounds. -/
theorem rounds_digits (low? : Option Nat) (digits : List Char) (within : text <:+ pattern) :
    rounds quantifierRound (low?, digits) (.before pattern text) =
      rounds quantifierRound (low?, digits ++ text.takeWhile Char.isDigit)
        (.before pattern (text.dropWhile Char.isDigit)) := by
  induction text generalizing digits with
  | nil => simp
  | cons digit rest ih =>
      have behind := (List.suffix_cons digit rest).trans within
      by_cases isDigit : digit.isDigit = true
      · rw [rounds_digit _ _ isDigit within, ih _ behind]
        simp [isDigit]
      · simp [isDigit]

/-- The character in front of the end of a number is the last digit, if there is one. -/
theorem separator_before_digits {opening : Char} (within : opening :: text <:+ pattern) :
    (Cursor.before pattern (text.dropWhile Char.isDigit)).current?.any isSeparator =
      ((text.takeWhile Char.isDigit).isEmpty && isSeparator opening) := by
  induction text generalizing opening with
  | nil => simp [current?_before within]
  | cons digit rest ih =>
      have behind := (List.suffix_cons opening _).trans within
      by_cases isDigit : digit.isDigit = true
      · simp [isDigit, ih behind, isSeparator_eq_false_of_isDigit isDigit]
      · simp [isDigit, current?_before within]

/-- The rounds of a quantifier up to the end of its first number. -/
theorem rounds_quantifierRound {opening : Char} (low? : Option Nat)
    (within : opening :: text <:+ pattern) :
    rounds quantifierRound (low?, []) (.before pattern text) =
      let digits := text.takeWhile Char.isDigit
      match text.dropWhile Char.isDigit with
      | [] => .error (Failure.stop ⟨.unterminatedQuantifier, []⟩ pattern)
      | '\x7d' :: after =>
          if digits.isEmpty && isSeparator opening then
            .error (Failure.stop ⟨.missingUpperBound, '\x7d' :: after⟩ pattern)
          else .ok ((low?, digits), .before pattern after)
      | other :: after =>
          if isSeparator other then
            if low?.isSome then .error (Failure.stop ⟨.secondSeparator, other :: after⟩ pattern)
            else
              ((Quantifier.number digits (other :: after)).mapError (·.stop pattern)).bind
                fun low => rounds quantifierRound (some low, []) (.before pattern after)
          else .error (Failure.stop ⟨.nonDigit other, other :: after⟩ pattern) := by
  have behind := (List.suffix_cons opening _).trans within
  have tail := (List.dropWhile_suffix Char.isDigit).trans behind
  have separated := separator_before_digits within
  rw [rounds_digits _ _ behind, List.nil_append]
  cases stops : text.dropWhile Char.isDigit with
  | nil =>
      rw [stops] at tail
      apply rounds_error
      rw [quantifierRound, current?_advance_before tail]
      rfl
  | cons other after =>
      rw [stops] at tail separated
      have noDigit : other.isDigit = false := by
        have first := List.head?_dropWhile_not Char.isDigit text
        rwa [stops] at first
      by_cases closes : other = '\x7d'
      · subst closes
        rw [rounds_closing _ _ tail, separated]
        rfl
      · split
        · next same => cases same
        · next same => exact absurd (List.cons.inj same).1 closes
        · next same =>
            cases same
            by_cases separates : isSeparator other = true
            · rw [rounds_separator _ _ separates tail, if_pos separates]
            · rw [if_neg separates]
              rw [Bool.not_eq_true] at separates
              exact rounds_nonDigit _ _ noDigit closes separates tail

/-- The number behind the last bound of a quantifier has to fit. -/
theorem repetition_before (low? : Option Nat) (digits : List Char)
    (within : first :: rest <:+ pattern) :
    repetition limits low? digits (.before pattern rest) =
      Reading.scan
        ((Quantifier.upperBound limits digits (first :: rest)).bind fun high =>
          match low? with
          | none => .ok (.exactly high, rest)
          | some low =>
              if high < low then .error ⟨.boundsReversed low high, first :: rest⟩
              else .ok (.between low high, rest))
        pattern := by
  rw [repetition, number_before _ within, Quantifier.upperBound]
  cases Quantifier.number digits (first :: rest) with
  | error failure => rfl
  | ok high =>
      simp only [Except.mapError, Except.bind]
      split
      · rw [Reading.scan, Failure.stop_cons _ within]
        rfl
      · cases low? with
        | none => rfl
        | some low =>
            simp only
            split
            · rw [Reading.scan, Failure.stop_cons _ within]
              rfl
            · rfl

/-- The upper bound of a quantifier, and what is made of both bounds. -/
theorem rounds_upper {separator : Char} (low : Nat) (parts : isSeparator separator = true)
    (within : separator :: text <:+ pattern) :
    ((rounds quantifierRound (some low, []) (.before pattern text)).bind
      fun ((low?, digits), after) => repetition limits low? digits after) =
      (Quantifier.readUpper limits low text).scan pattern := by
  have behind := (List.suffix_cons separator _).trans within
  have tail := (List.dropWhile_suffix Char.isDigit).trans behind
  rw [rounds_quantifierRound _ within, Quantifier.readUpper]
  simp only [parts, Bool.and_true, Option.isSome_some, if_true]
  -- Both sides look at the same stop behind the same digits.
  generalize text.takeWhile Char.isDigit = digits
  generalize text.dropWhile Char.isDigit = stopped at tail
  split
  · rfl
  · next after =>
      by_cases empty : digits.isEmpty = true
      · simp only [empty, if_true]
        rfl
      · simp only [empty, Bool.false_eq_true, if_false, Except.bind]
        rw [repetition_before _ _ tail]
        rfl
  · next other after noClosing =>
      by_cases again : isSeparator other = true
      · simp only [again, if_true]
        rfl
      · simp only [again, Bool.false_eq_true, if_false]
        rfl

/-- A quantifier is scanned as it is read. -/
theorem quantifier_before {opening : Char} (noSeparator : isSeparator opening = false)
    (within : opening :: text <:+ pattern) :
    quantifier limits (.before pattern text) = (readQuantifier limits text).scan pattern := by
  have behind := (List.suffix_cons opening _).trans within
  have tail := (List.dropWhile_suffix Char.isDigit).trans behind
  rw [quantifier, rounds_quantifierRound _ within, readQuantifier]
  simp only [noSeparator, Bool.and_false, Option.isSome_none]
  generalize text.takeWhile Char.isDigit = digits
  generalize text.dropWhile Char.isDigit = stopped at tail
  split
  · rfl
  · next after =>
      simp only [Except.bind]
      rw [if_neg Bool.false_ne_true]
      simp only
      rw [repetition_before _ _ tail]
      cases Quantifier.upperBound limits digits ('\x7d' :: after) <;> rfl
  · next other after noClosing =>
      by_cases parts : isSeparator other = true
      · simp only [parts, if_true]
        cases Quantifier.number digits (other :: after) with
        | error failure => rfl
        | ok low => exact rounds_upper low parts tail
      · simp only [parts, Bool.false_eq_true, if_false]
        rfl

/-! ## Character sets -/

theorem addMembers_eq_mapValue (members : List Char) (reading : Reading (List Char)) :
    addMembers members reading = reading.mapValue (members ++ ·) :=
  rfl

section Rounds

variable {members : List Char} (within : first :: rest <:+ pattern)

include within

theorem memberRound_stray (structural : isMeta first = true) (noClosing : first ≠ ']') :
    memberRound limits members (.before pattern (first :: rest)) =
      refuse (.strayMetaInClass first) (.before pattern rest) := by
  have unescaped := ne_backslash_of_isMeta structural
  rw [memberRound, advance_before within, current?_before within]
  simp [rangeRound, structural]

theorem memberRound_hyphen (ordinary : isMeta first = false) (unescaped : first ≠ '\\')
    (hyphen : rest.head? = some '-') :
    memberRound limits members (.before pattern (first :: rest)) =
      rangeRound limits members first (.before pattern rest) := by
  have noClosing : first ≠ ']' := by
    rintro rfl
    cases ordinary
  have next := next?_before ((List.suffix_cons first rest).trans within)
  rw [memberRound, advance_before within, current?_before within]
  simp [next, hyphen]

theorem memberRound_single (ordinary : isMeta first = false) (unescaped : first ≠ '\\')
    (noRange : rest.head? ≠ some '-') :
    memberRound limits members (.before pattern (first :: rest)) =
      .ok (.again (members ++ [first]), .before pattern rest) := by
  have noClosing : first ≠ ']' := by
    rintro rfl
    cases ordinary
  have next := next?_before ((List.suffix_cons first rest).trans within)
  rw [memberRound, advance_before within, current?_before within]
  simp [next, noRange, ordinary]

end Rounds

theorem memberRound_range {second : Char} (limits : Limits) (members : List Char)
    (ordinary : isMeta first = false) (unescaped : first ≠ '\\')
    (within : first :: '-' :: second :: rest <:+ pattern) :
    memberRound limits members (.before pattern (first :: '-' :: second :: rest)) =
      if isMeta second then .error (Failure.stop ⟨.badRangeEnd, second :: rest⟩ pattern)
      else
        match expandRange limits.maxRangeSpan first second with
        | .error tooLarge =>
            let fault := SyntaxFault.rangeTooLarge first second tooLarge.span
            .error (Failure.stop ⟨fault, second :: rest⟩ pattern)
        | .ok range => .ok (.again (members ++ range), .before pattern rest) := by
  have hyphen := (List.suffix_cons first _).trans within
  have behind := (List.suffix_cons '-' _).trans hyphen
  rw [memberRound_hyphen within ordinary unescaped rfl, rangeRound, if_neg (by simp [ordinary])]
  simp only [Failure.stop_cons _ behind]
  rw [advance_before hyphen, advance_before behind, current?_before behind]
  rfl

/-- The loop over a character set takes what is read as its members. -/
theorem rounds_memberRound (members : List Char) (within : text <:+ pattern) :
    rounds (memberRound limits) members (.before pattern text) =
      ((readMembers limits text).mapValue (members ++ ·)).scan pattern := by
  fun_induction readMembers limits text generalizing members with
  | case1 =>
      apply rounds_error
      rw [memberRound, current?_advance_before within]
      rfl
  | case2 after =>
      apply rounds_done
      rw [memberRound, advance_before within, current?_before within]
      simp
  | case3 =>
      have behind := (List.suffix_cons '\\' _).trans within
      apply rounds_error
      rw [memberRound, advance_before within, current?_before within]
      simp only
      rw [current?_advance_before behind]
      rfl
  | case4 escaped rest ih =>
      have behind := (List.suffix_cons '\\' _).trans within
      have later := (List.suffix_cons escaped _).trans behind
      have round : memberRound limits members (.before pattern ('\\' :: escaped :: rest)) =
          .ok (.again (members ++ escapedMembers escaped), .before pattern rest) := by
        rw [memberRound, advance_before within, current?_before within]
        simp only
        rw [advance_before behind, current?_before behind]
      have moves := unread_lt_unread within later (Nat.lt_succ_of_lt (Nat.lt_succ_self _))
      rw [rounds_again round moves, ih _ later, addMembers_eq_mapValue, mapValue_mapValue]
      simp
  | case5 first noClosing unescaped structural =>
      rw [rounds_error (memberRound_stray within structural noClosing)]
      exact congrArg Except.error (Failure.stop_cons _ within).symm
  | case6 first noClosing unescaped ordinary =>
      rw [Bool.not_eq_true] at ordinary
      have behind := (List.suffix_cons first _).trans within
      have later := (List.suffix_cons '-' _).trans behind
      apply rounds_error
      rw [memberRound_hyphen within ordinary unescaped rfl, rangeRound, if_neg (by simp [ordinary])]
      simp only
      rw [advance_before behind, current?_advance_before later]
      rfl
  | case7 first second rest noClosing unescaped structural =>
      rw [rounds_error (memberRound_stray within structural noClosing)]
      exact congrArg Except.error (Failure.stop_cons _ within).symm
  | case8 first second rest noClosing unescaped ordinary structural =>
      rw [Bool.not_eq_true] at ordinary
      apply rounds_error
      rw [memberRound_range limits members ordinary unescaped within, if_pos structural]
  | case9 first second rest noClosing unescaped ordinary secondOrdinary tooLarge expands =>
      rw [Bool.not_eq_true] at ordinary
      apply rounds_error
      rw [memberRound_range limits members ordinary unescaped within, if_neg secondOrdinary,
        expands]
  | case10 first second rest noClosing unescaped ordinary secondOrdinary range expands ih =>
      rw [Bool.not_eq_true] at ordinary
      have later : rest <:+ pattern := .trans ⟨[first, '-', second], rfl⟩ within
      have round := memberRound_range limits members ordinary unescaped within
      rw [if_neg secondOrdinary, expands] at round
      have moves := unread_lt_unread within later (by simp only [List.length_cons]; omega)
      rw [rounds_again round moves, ih _ later, addMembers_eq_mapValue, mapValue_mapValue]
      simp
  | case11 member rest noClosing _ _ _ _ structural =>
      rw [rounds_error (memberRound_stray within structural noClosing)]
      exact congrArg Except.error (Failure.stop_cons _ within).symm
  | case12 member rest _ alone escapes pending ranges ordinary ih =>
      rw [Bool.not_eq_true] at ordinary
      have later := (List.suffix_cons member _).trans within
      have unescaped := ne_backslash_of_cases alone escapes
      have noRange := head?_ne_hyphen_of_cases pending ranges
      have moves := unread_lt_unread within later (Nat.lt_succ_self _)
      rw [rounds_again (memberRound_single within ordinary unescaped noRange) moves, ih _ later,
        addMembers_eq_mapValue, mapValue_mapValue]
      simp

/-- A character set is scanned as it is read, with its quantifier. -/
theorem characterSet_before (within : text <:+ pattern) :
    characterSet limits (.before pattern text) = (readCharacterSet limits text).scan pattern := by
  rw [characterSet, rounds_memberRound [] within, readCharacterSet]
  cases read : readMembers limits text with
  | error failure => rfl
  | ok pair =>
      rcases pair with ⟨members, after⟩
      obtain ⟨written, same, -⟩ := readMembers_sound read
      have closing : ']' :: after <:+ pattern := .trans ⟨written, same.symm⟩ within
      have behind := (List.suffix_cons ']' _).trans closing
      simp only [mapValue, Except.map, Reading.scan, List.nil_append, Except.bind]
      split
      · exact congrArg Except.error (Failure.stop_cons _ closing).symm
      · rw [next?_before behind]
        cases after with
        | nil => rfl
        | cons next rest =>
            by_cases opens : next = '\x7b'
            · subst opens
              rw [List.head?_cons, if_pos rfl, advance_before behind, quantifier_before rfl behind,
                readRepetition]
              cases readQuantifier limits rest <;> rfl
            · simp [readRepetition, opens]

/-! ## References -/

/-- The loop over a name takes all characters up to a closing brace. -/
theorem rounds_referenceRound (name : List Char) (within : text <:+ pattern) :
    rounds referenceRound name (.before pattern text) =
      match text.dropWhile (· != '\x7d') with
      | [] => .error (Failure.stop ⟨.unterminatedReference, []⟩ pattern)
      | _ :: after => .ok (name ++ text.takeWhile (· != '\x7d'), .before pattern after) := by
  induction text generalizing name with
  | nil =>
      apply rounds_error
      rw [referenceRound, current?_advance_before within]
      rfl
  | cons character rest ih =>
      have behind := (List.suffix_cons character _).trans within
      by_cases closes : character = '\x7d'
      · subst closes
        apply rounds_done
        rw [referenceRound, advance_before within, current?_before within]
        simp
      · have round : referenceRound name (.before pattern (character :: rest)) =
            .ok (.again (name ++ [character]), .before pattern rest) := by
          rw [referenceRound, advance_before within, current?_before within]
          simp
        have moves := unread_lt_unread within behind (Nat.lt_succ_self _)
        rw [rounds_again round moves, ih _ behind]
        simp [closes]

/-- A reference is scanned as it is read. -/
theorem reference_before (within : '\x7b' :: text <:+ pattern) :
    reference (.before pattern ('\x7b' :: text)) =
      ((readReference text).mapValue .reference).scan pattern := by
  have behind := (List.suffix_cons '\x7b' _).trans within
  have tail := (List.dropWhile_suffix (· != '\x7d')).trans behind
  rw [reference, advance_before within, rounds_referenceRound [] behind, readReference]
  simp only [List.nil_append]
  generalize text.takeWhile (· != '\x7d') = name
  generalize text.dropWhile (· != '\x7d') = stopped at tail
  cases stopped with
  | nil => rfl
  | cons closing after =>
      simp only [Except.bind]
      split
      · rfl
      · exact congrArg Except.error (Failure.stop_cons _ tail).symm

end Scan

end TextTemplate
