import TextTemplate.Proofs.Pattern.Locality

/-!
# Narrower and wider limits

Limits only refuse.  Reading under narrower limits goes as it does under wider ones, up to the
first place where a limit is exceeded, and there it fails.
-/

namespace TextTemplate

variable {α β : Type} {limits wider : Limits}

/-- Limits that allow nothing which wider ones forbid. -/
structure Limits.IsWithin (limits wider : Limits) : Prop where
  maxDepth : limits.maxDepth ≤ wider.maxDepth
  maxRangeSpan : limits.maxRangeSpan ≤ wider.maxRangeSpan
  maxRepeat : limits.maxRepeat ≤ wider.maxRepeat

/-! ## Readings that stop early -/

/-- A reading has the outcome of another one, or it fails where that one has not got further. -/
def Reading.StopsEarly (reading other : Reading α) : Prop :=
  reading = other ∨
    ∃ failure, reading = .error failure ∧ other.rest.length ≤ failure.remaining.length

namespace Reading.StopsEarly

variable {reading other : Reading α}

theorem refl (reading : Reading α) : StopsEarly reading reading := .inl rfl

theorem error {failure : Failure} (later : other.rest.length ≤ failure.remaining.length) :
    StopsEarly (.error failure) other :=
  .inr ⟨failure, rfl, later⟩

theorem mapValue (early : StopsEarly reading other) (change : α → β) :
    StopsEarly (reading.mapValue change) (other.mapValue change) := by
  rcases early with rfl | ⟨failure, rfl, later⟩
  · exact .refl _
  · exact .error (by rwa [rest_mapValue])

theorem bind {next next' : α × List Char → Reading β} (early : StopsEarly reading other)
    (earlyBehind : ∀ value after, StopsEarly (next (value, after)) (next' (value, after)))
    (forward : ∀ failure value after, reading = .error failure → other = .ok (value, after) →
      (next' (value, after)).rest.length ≤ after.length) :
    StopsEarly (reading.bind next) (other.bind next') := by
  rcases early with rfl | ⟨failure, rfl, later⟩
  · cases reading with
    | error failure => exact .refl _
    | ok pair => exact earlyBehind pair.1 pair.2
  · refine .error (Nat.le_trans ?_ later)
    cases other with
    | error failure => exact Nat.le_refl _
    | ok pair => exact forward failure pair.1 pair.2 rfl rfl

theorem length_rest_le (early : StopsEarly reading other) {failure : Failure}
    (failed : reading = .error failure) : other.rest.length ≤ failure.remaining.length := by
  rcases early with rfl | ⟨_, same, later⟩
  · rw [failed]
    exact Nat.le_refl _
  · rw [failed] at same
    cases same
    exact later

theorem eq_of_ok (early : StopsEarly reading other) {value : α} {after : List Char}
    (read : reading = .ok (value, after)) : other = .ok (value, after) := by
  rcases early with rfl | ⟨failure, failed, -⟩
  · exact read
  · rw [read] at failed
    cases failed

end Reading.StopsEarly

open Reading (StopsEarly)

theorem IsLocalAt.length_rest_le {read : List Char → Reading α} {text : List Char}
    (isLocal : IsLocalAt read text) : (read text).rest.length ≤ text.length := by
  obtain ⟨passed, parts, -⟩ := isLocal
  have whole := congrArg List.length parts
  rw [List.length_append] at whole
  omega

theorem length_rest_mapValue_le {reading : Reading α} {bound : Nat} (change : α → β)
    (forward : reading.rest.length ≤ bound) : (reading.mapValue change).rest.length ≤ bound := by
  rwa [Reading.rest_mapValue]

/-! ## Quantifiers -/

namespace Quantifier

theorem upperBound_of_isWithin (within : limits.IsWithin wider) (digits remaining : List Char) :
    upperBound limits digits remaining = upperBound wider digits remaining ∨
      ∃ fault, upperBound limits digits remaining = .error ⟨fault, remaining⟩ := by
  cases bounded : upperBound limits digits remaining with
  | ok high =>
      obtain ⟨written, fits, allowed⟩ := upperBound_eq_ok_iff.mp bounded
      exact .inl (upperBound_eq_ok_iff.mpr
        ⟨written, fits, Nat.le_trans allowed within.maxRepeat⟩).symm
  | error failure =>
      rcases exists_upperBound limits digits with ⟨high, always⟩ | ⟨fault, refused⟩
      · rw [always] at bounded
        cases bounded
      · rw [refused] at bounded
        cases bounded
        exact .inr ⟨fault, rfl⟩

theorem bind_upperBound_stopsEarly (within : limits.IsWithin wider) (digits remaining : List Char)
    {next : Nat → Reading α} (forward : ∀ high, (next high).rest.length ≤ remaining.length) :
    StopsEarly ((upperBound limits digits remaining).bind next)
      ((upperBound wider digits remaining).bind next) := by
  rcases upperBound_of_isWithin within digits remaining with same | ⟨fault, refused⟩
  · rw [same]
    exact .refl _
  · rw [refused]
    refine .error ?_
    rcases exists_upperBound wider digits with ⟨high, always⟩ | ⟨fault, refusedToo⟩
    · rw [always]
      exact forward high
    · rw [refusedToo]
      exact Nat.le_refl _

theorem readUpper_stopsEarly (within : limits.IsWithin wider) (low : Nat) (text : List Char) :
    StopsEarly (readUpper limits low text) (readUpper wider low text) := by
  unfold readUpper
  dsimp only
  split
  · exact .refl _
  · split
    · exact .refl _
    · refine bind_upperBound_stopsEarly within _ _ fun high => ?_
      split
      · exact Nat.le_refl _
      · exact Nat.le_succ _
  · exact .refl _

end Quantifier

open Quantifier

theorem readQuantifier_stopsEarly (within : limits.IsWithin wider) (text : List Char) :
    StopsEarly (readQuantifier limits text) (readQuantifier wider text) := by
  unfold readQuantifier
  dsimp only
  split
  · exact .refl _
  · exact bind_upperBound_stopsEarly within _ _ fun high => Nat.le_succ _
  · split
    · next other after _ _ _ =>
      cases number (text.takeWhile Char.isDigit) (other :: after) with
      | error failure => exact .refl _
      | ok low => exact readUpper_stopsEarly within low after
    · exact .refl _

/-! ## Character sets -/

theorem expandRange_of_le {maxSpan larger : Nat} (le : maxSpan ≤ larger) {first second : Char}
    {range : List Char} (expands : expandRange maxSpan first second = .ok range) :
    expandRange larger first second = .ok range := by
  unfold expandRange at expands ⊢
  dsimp only at expands ⊢
  split at expands
  · cases expands
  · next narrow => rwa [if_neg (by omega)]

open CharacterSet

theorem readMembers_stopsEarly (within : limits.IsWithin wider) (text : List Char) :
    StopsEarly (readMembers limits text) (readMembers wider text) := by
  fun_induction readMembers limits text with
  | case1 => rw [readMembers]; exact .refl _
  | case2 after => rw [readMembers]; exact .refl _
  | case3 => rw [readMembers]; exact .refl _
  | case4 escaped rest ih =>
      rw [readMembers]
      exact ih.mapValue _
  | case5 first opens _ structural =>
      rw [readMembers_meta structural opens]
      exact .refl _
  | case6 first opens unescaped ordinary =>
      simp_all [readMembers, StopsEarly.refl]
  | case7 first second rest opens _ structural =>
      rw [readMembers_meta structural opens]
      exact .refl _
  | case8 first second rest _ unescaped ordinary structural =>
      rw [Bool.not_eq_true] at ordinary
      rw [readMembers_hyphen ordinary unescaped, if_pos structural]
      exact .refl _
  | case9 first second rest _ unescaped ordinary secondOrdinary tooLarge expands =>
      rw [Bool.not_eq_true] at ordinary
      rw [readMembers_hyphen ordinary unescaped, if_neg secondOrdinary]
      cases expandRange wider.maxRangeSpan first second with
      | error tooLarge => exact .error (Nat.le_refl _)
      | ok range =>
          refine .error (Nat.le_succ_of_le ?_)
          exact length_rest_mapValue_le _ (readMembers_isLocal wider rest).length_rest_le
  | case10 first second rest _ unescaped ordinary secondOrdinary range expands ih =>
      rw [Bool.not_eq_true] at ordinary
      rw [readMembers_hyphen ordinary unescaped, if_neg secondOrdinary,
        expandRange_of_le within.maxRangeSpan expands]
      exact ih.mapValue _
  | case11 member rest opens _ _ _ _ structural =>
      rw [readMembers_meta structural opens]
      exact .refl _
  | case12 member rest closes alone escapes pending ranges ordinary ih =>
      rw [readMembers, if_neg ordinary] <;> try assumption
      exact ih.mapValue _

theorem readRepetition_stopsEarly (within : limits.IsWithin wider) (text : List Char) :
    StopsEarly (readRepetition limits text) (readRepetition wider text) := by
  unfold readRepetition
  split
  · exact readQuantifier_stopsEarly within _
  · exact .refl _

theorem readCharacterSet_stopsEarly (within : limits.IsWithin wider) (text : List Char) :
    StopsEarly (readCharacterSet limits text) (readCharacterSet wider text) := by
  unfold readCharacterSet
  refine (readMembers_stopsEarly within text).bind ?_ ?_
  · intro members after
    dsimp only
    split
    · exact .refl _
    · exact (readRepetition_stopsEarly within after).mapValue (Node.characterSet members)
  · intro failure members after failed read
    dsimp only
    split
    · next none =>
        -- Only a bracket right at the front ends a set without members, under any limits.
        obtain ⟨written, rfl, writes⟩ := readMembers_sound read
        obtain rfl := writes.members_eq_nil_iff.mp (List.isEmpty_iff.mp none)
        rw [List.nil_append, readMembers] at failed
        cases failed
    · exact length_rest_mapValue_le (Node.characterSet members)
        (readRepetition_isLocal wider after).length_rest_le

/-! ## Writings -/

theorem WritesMembers.mono (within : limits.IsWithin wider) {written members : List Char}
    (writes : WritesMembers limits written members) : WritesMembers wider written members := by
  induction writes with
  | nil => exact .nil
  | escaped character rest ih => exact .escaped character ih
  | range firstOrdinary unescaped secondOrdinary expands rest ih =>
      exact .range firstOrdinary unescaped secondOrdinary
        (expandRange_of_le within.maxRangeSpan expands) ih
  | single ordinary unescaped noRange rest ih => exact .single ordinary unescaped noRange ih

theorem WritesRepetition.mono (within : limits.IsWithin wider) {written : List Char}
    {repetition : Repetition} (writes : WritesRepetition limits written repetition) :
    WritesRepetition wider written repetition := by
  cases writes with
  | once => exact .once
  | exactly digits fits allowed =>
      exact .exactly digits fits (Nat.le_trans allowed within.maxRepeat)
  | between lowerDigits parted upperDigits named ordered fits allowed =>
      exact .between lowerDigits parted upperDigits named ordered fits
        (Nat.le_trans allowed within.maxRepeat)

theorem WritesTokens.mono (within : limits.IsWithin wider) {written : List Char}
    {tokens : List Token} (writes : WritesTokens limits written tokens) :
    WritesTokens wider written tokens := by
  induction writes with
  | nil => exact .nil
  | literal writes notEmpty ends later ih => exact .literal writes notEmpty ends ih
  | characterSet writes notEmpty repeats later ih =>
      exact .characterSet (writes.mono within) notEmpty (repeats.mono within) ih
  | reference unbraced valid later ih => exact .reference unbraced valid ih
  | openGroup later ih => exact .openGroup ih
  | closeGroup later ih => exact .closeGroup ih
  | operator operator later ih => exact .operator operator ih

/-! ## Tokens and patterns -/

theorem readToken_stopsEarly (within : limits.IsWithin wider) (first : Char) (rest : List Char) :
    StopsEarly (readToken limits first rest) (readToken wider first rest) := by
  unfold readToken
  split
  · exact (readCharacterSet_stopsEarly within _).mapValue Token.leaf
  · exact .refl _
  · exact .refl _
  · exact .refl _
  · exact .refl _
  · exact .refl _
  · split <;> exact .refl _

/-- Only a set is read differently under other limits, and a set is a leaf. -/
theorem exists_leaf_of_readToken_ne {first : Char} {rest after : List Char} {token : Token}
    (differ : readToken limits first rest ≠ readToken wider first rest)
    (reads : readToken wider first rest = .ok (token, after)) : ∃ node, token = .leaf node := by
  unfold readToken at differ
  split at differ
  · obtain ⟨⟨node, behind⟩, -, pair⟩ := Reading.map_eq_ok_iff.mp reads
    cases pair
    exact ⟨node, rfl⟩
  all_goals exact absurd rfl differ

theorem take_of_isWithin (within : limits.IsWithin wider) {nesting deeper : Nesting} {token : Token}
    (takes : nesting.take limits token = .ok deeper) : nesting.take wider token = .ok deeper := by
  cases token with
  | leaf node => exact takes
  | operator operator => exact takes
  | closeGroup => exact takes
  | openGroup =>
      simp only [Nesting.take] at takes ⊢
      split at takes
      · next allowed => rwa [if_pos (Nat.lt_of_lt_of_le allowed within.maxDepth)]
      · cases takes

/-- No failure lies in front of the text that is read. -/
theorem length_remaining_le {nesting : Nesting} {text : List Char} {failure : Failure}
    (failed : readTree limits nesting text = .error failure) :
    failure.remaining.length ≤ text.length := by
  obtain ⟨passed, rfl, -⟩ := readTree_failure_local failed
  rw [List.length_append]
  omega

/-- Reading goes as it does under wider limits, or it fails no later than it does under these. -/
theorem readTree_of_isWithin (within : limits.IsWithin wider) (nesting : Nesting)
    (text : List Char) :
    readTree limits nesting text = readTree wider nesting text ∨
      ∃ failure, readTree limits nesting text = .error failure ∧
        ∀ later, readTree wider nesting text = .error later →
          later.remaining.length ≤ failure.remaining.length := by
  fun_induction readTree limits nesting text with
  | case1 nesting => exact .inl (by rw [readTree])
  | case2 nesting first rest failure reads =>
      refine .inr ⟨failure, rfl, ?_⟩
      intro later failed
      have noFurther := (readToken_stopsEarly within first rest).length_rest_le reads
      rw [readTree_cons] at failed
      cases wideReads : readToken wider first rest with
      | error wideFailure =>
          rw [wideReads] at failed noFurther
          cases failed
          exact noFurther
      | ok pair =>
          obtain ⟨token, after⟩ := pair
          have differ : readToken limits first rest ≠ readToken wider first rest := by
            simp [reads, wideReads]
          obtain ⟨node, rfl⟩ := exists_leaf_of_readToken_ne differ wideReads
          rw [wideReads] at failed noFurther
          exact Nat.le_trans (length_remaining_le failed) noFurther
  | case3 nesting first rest token after reads fault takes =>
      exact .inr ⟨_, rfl, fun later failed => length_remaining_le failed⟩
  | case4 nesting first rest token after reads deeper takes _ ih =>
      have wideReads := (readToken_stopsEarly within first rest).eq_of_ok reads
      rw [readTree_cons, wideReads]
      simp only [take_of_isWithin within takes]
      exact ih

/--
Limits only refuse.  What is read under some limits is read to the same tree under wider ones,
and a syntax error under the wider limits is one under the narrower limits too, no later in the
pattern.
-/
theorem parse_of_wider_limits (within : limits.IsWithin wider) (pattern : List Char) :
    (∀ tree, parse limits pattern = .ok tree → parse wider pattern = .ok tree) ∧
      ∀ later, parse wider pattern = .error later →
        ∃ error, parse limits pattern = .error error ∧
          error.position.offset ≤ later.position.offset := by
  unfold parse
  rcases readTree_of_isWithin within .root pattern with same | ⟨failure, failed, noFurther⟩
  · rw [same]
    exact ⟨fun tree read => read, fun later failed => ⟨later, failed, Nat.le_refl _⟩⟩
  · rw [failed]
    constructor
    · rintro tree ⟨⟩
    · intro later laterFailed
      refine ⟨failure.locate pattern, rfl, ?_⟩
      cases wide : readTree wider .root pattern with
      | ok tree =>
          rw [wide] at laterFailed
          cases laterFailed
      | error wideFailure =>
          rw [wide] at laterFailed
          cases laterFailed
          have fewer := noFurther wideFailure wide
          simp only [Failure.locate, Position.offset_ofOffset]
          omega

/-- One more level of groups: more is read, and a fault behind the level moves back to it. -/
theorem parse_of_one_more_level :
    let narrow : Limits := { maxDepth := 1 }
    let wide : Limits := { maxDepth := 2 }
    narrow.IsWithin wide ∧
      parse wide "(a)".toList = .ok (.sequence [.sequence [.literal ['a']]]) ∧
        parse wide "((a))]".toList = .error ⟨.strayMeta ']', ⟨5, 1, 6⟩⟩ ∧
          ∃ error, parse narrow "((a))]".toList = .error error ∧ error.position.offset ≤ 5 := by
  intro narrow wide
  have within : narrow.IsWithin wide := ⟨by decide, by decide, by decide⟩
  have read : parse narrow "(a)".toList = .ok (.sequence [.sequence [.literal ['a']]]) := by
    decide +kernel
  have failed : parse wide "((a))]".toList = .error ⟨.strayMeta ']', ⟨5, 1, 6⟩⟩ := by
    decide +kernel
  exact ⟨within, (parse_of_wider_limits within _).1 _ read, failed,
    (parse_of_wider_limits within _).2 _ failed⟩

end TextTemplate
