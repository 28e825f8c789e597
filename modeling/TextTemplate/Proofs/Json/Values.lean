import Mathlib.Data.List.DropRight
import Mathlib.Data.List.Forall2
import TextTemplate.Json.Reader
import TextTemplate.Json.Writer

/-!
# Reading back what pieces write

Every piece of JSON writes a value: wherever it stands, the reader takes exactly the piece off
the text and has that value.  Texts and numbers do so by themselves, arrays and objects when
their parts do.
-/

namespace TextTemplate.Json

/-! ## Blanks -/

theorem skipBlanks_cons {first : Char} (visible : isBlank first = false) (rest : List Char) :
    skipBlanks (first :: rest) = first :: rest := by
  simp [skipBlanks, visible]

theorem skipBlanks_append {before : List Char} (blank : ∀ character ∈ before, isBlank character)
    (text : List Char) : skipBlanks (before ++ text) = skipBlanks text :=
  List.dropWhile_append_of_pos blank

theorem skipBlanks_skipBlanks (text : List Char) :
    skipBlanks (skipBlanks text) = skipBlanks text :=
  List.dropWhile_idempotent isBlank text

theorem readValue_skipBlanks (fuel : Nat) (text : List Char) :
    readValue fuel (skipBlanks text) = readValue fuel text := by
  cases fuel with
  | zero => rfl
  | succ fuel => rw [readValue, readValue, skipBlanks_skipBlanks]

theorem readField_skipBlanks (fuel : Nat) (text : List Char) :
    readField fuel (skipBlanks text) = readField fuel text := by
  cases fuel with
  | zero => rfl
  | succ fuel => rw [readField, readField, skipBlanks_skipBlanks]

/-! ## Strings -/

theorem codeUnit?_control : ∀ code < 0x20,
    codeUnit? '0' '0' (Nat.digitChar (code / 16)) (Nat.digitChar (code % 16)) = some code := by
  decide

theorem readCodes_shortEscape {letter : Char} {code : Nat} (short : shortEscape? letter = some code)
    (rest : List Char) :
    readCodes ('\\' :: letter :: rest) =
      (readCodes rest).map fun (codes, after) => (code :: codes, after) := by
  have notUnit : letter ≠ 'u' := by
    rintro rfl
    cases short
  rw [readCodes]
  · rw [short]
    cases readCodes rest <;> rfl
  · simp [notUnit]

/-- An escaped character is read as its code. -/
theorem readCodes_escape (character : Char) (rest : List Char) :
    readCodes (escape character ++ rest) =
      (readCodes rest).map fun (codes, after) => (character.toNat :: codes, after) := by
  fun_cases escape character with
  | case8 _ _ _ _ _ _ _ control =>
      simp only [List.cons_append, List.nil_append, readCodes, codeUnit?_control _ control]
      cases readCodes rest <;> rfl
  | case9 notQuote notBackslash _ _ _ _ _ printable =>
      rw [List.singleton_append, readCodes]
      · rw [if_neg printable]
        cases readCodes rest <;> rfl
      all_goals simp [notQuote, notBackslash]
  | _ =>
      subst_vars
      exact readCodes_shortEscape rfl rest

theorem readCodes_flatMap_escape (text after : List Char) :
    readCodes (text.flatMap escape ++ '"' :: after) = some (text.map Char.toNat, after) := by
  induction text with
  | nil => rfl
  | cons character text ih =>
      rw [List.flatMap_cons, List.append_assoc, readCodes_escape, ih]
      rfl

/-- No character is half of a surrogate pair. -/
theorem not_surrogate_toNat (character : Char) :
    isHighSurrogate character.toNat = false ∧ isLowSurrogate character.toNat = false := by
  have valid : character.toNat < 0xd800 ∨ 0xdfff < character.toNat ∧ character.toNat < 0x110000 :=
    character.valid
  simp only [isHighSurrogate, isLowSurrogate, Bool.and_eq_false_iff, decide_eq_false_iff_not]
  omega

theorem textOfCodes?_map_toNat (text : List Char) :
    textOfCodes? (text.map Char.toNat) = some text := by
  induction text with
  | nil => rfl
  | cons first rest ih =>
      obtain ⟨notHigh, notLow⟩ := not_surrogate_toNat first
      cases rest with
      | nil => simp [textOfCodes?, notHigh, notLow, Char.ofNat_toNat]
      | cons second rest =>
          rw [List.map_cons] at ih
          simp [textOfCodes?, notHigh, notLow, Char.ofNat_toNat, ih]

theorem readString_flatMap_escape (text after : List Char) :
    readString (text.flatMap escape ++ '"' :: after) = some (some text, after) := by
  simp [readString, readCodes_flatMap_escape, textOfCodes?_map_toNat]

/-! ## Numbers -/

/-- No number goes on with a text. -/
def EndsNumber (after : List Char) : Prop :=
  ∀ next ∈ after.head?, next.isDigit = false ∧ next ≠ '.' ∧ next ≠ 'e' ∧ next ≠ 'E'

theorem endsNumber_nil : EndsNumber [] := by
  simp [EndsNumber]

theorem endsNumber_cons {next : Char} (separates : next ∈ [',', ']', '\x7d'])
    (after : List Char) : EndsNumber (next :: after) := by
  simp only [List.mem_cons, List.not_mem_nil, or_false] at separates
  rcases separates with rfl | rfl | rfl <;> simp [EndsNumber]

theorem endsNumber_of_blank {after : List Char} (blank : ∀ character ∈ after, isBlank character) :
    EndsNumber after := by
  cases after with
  | nil => exact endsNumber_nil
  | cons next after =>
      have isBlank := blank next List.mem_cons_self
      simp only [Json.isBlank, Bool.or_eq_true, beq_iff_eq] at isBlank
      rcases isBlank with ((rfl | rfl) | rfl) | rfl <;> simp [EndsNumber]

theorem digitChar_ne_zero : ∀ digit < 10, 0 < digit → Nat.digitChar digit ≠ '0' := by
  decide

/-- The digits of a positive number do not begin with a zero. -/
theorem head?_toDigits_ne_zero {number : Nat} (positive : 0 < number) :
    (Nat.toDigits 10 number).head? ≠ some '0' := by
  induction number using Nat.strongRecOn with
  | ind number ih =>
      rcases Nat.lt_or_ge number 10 with single | several
      · rw [Nat.toDigits_of_lt_base single, List.head?_cons]
        exact fun same => digitChar_ne_zero number single positive (Option.some.inj same)
      · rw [Nat.toDigits_of_base_le (by decide) several,
          List.head?_append_of_ne_nil _ Nat.toDigits_ne_nil]
        exact ih (number / 10) (by omega) (by omega)

theorem readDigits_toDigits {number : Nat} {after : List Char} (ends : EndsNumber after) :
    readDigits (Nat.toDigits 10 number ++ after) = some (Nat.toDigits 10 number, after) := by
  have digits : ∀ digit ∈ Nat.toDigits 10 number, digit.isDigit = true :=
    fun _ member => Nat.isDigit_of_mem_toDigits (by decide) (by decide) member
  have stops : after.takeWhile Char.isDigit = [] ∧ after.dropWhile Char.isDigit = after := by
    cases after with
    | nil => exact ⟨rfl, rfl⟩
    | cons next after => simp [(ends next rfl).1]
  rw [readDigits, List.takeWhile_append_of_pos digits, List.dropWhile_append_of_pos digits,
    stops.1, stops.2, List.append_nil]
  split
  · next noDigit => exact absurd noDigit Nat.toDigits_ne_nil
  · rfl

theorem skipFraction_of_endsNumber {after : List Char} (ends : EndsNumber after) :
    skipFraction after = some after := by
  fun_cases skipFraction after with
  | case1 rest => exact absurd rfl (ends '.' rfl).2.1
  | case2 => rfl

theorem skipExponent_of_endsNumber {after : List Char} (ends : EndsNumber after) :
    skipExponent after = some after := by
  cases after with
  | nil => rfl
  | cons next after =>
      have noMark : ¬(next = 'e' ∨ next = 'E') := not_or.mpr (ends next rfl).2.2
      simp only [skipExponent, if_neg noMark]

theorem readUnsigned_toDigits (number : Nat) {after : List Char} (ends : EndsNumber after) :
    readUnsigned (Nat.toDigits 10 number ++ after) = some (.natural number, after) := by
  have noLeadingZero : ¬((Nat.toDigits 10 number).head? = some '0' ∧
      (Nat.toDigits 10 number).length ≠ 1) := by
    rintro ⟨zero, several⟩
    rcases Nat.eq_zero_or_pos number with rfl | positive
    · exact several rfl
    · exact head?_toDigits_ne_zero positive zero
  simp [readUnsigned, readDigits_toDigits ends, noLeadingZero,
    skipFraction_of_endsNumber ends, skipExponent_of_endsNumber ends,
    Nat.ofDigitChars_ten_toDigits]

theorem readNumber_of_isDigit {first : Char} (digit : first.isDigit = true) (rest : List Char) :
    readNumber (first :: rest) = readUnsigned (first :: rest) := by
  rw [readNumber]
  rintro _ ⟨⟩
  cases digit

/-- A text that begins with a digit is read as a number. -/
theorem readValue_of_isDigit {first : Char} (digit : first.isDigit = true) (fuel : Nat)
    (rest : List Char) : readValue (fuel + 1) (first :: rest) = readUnsigned (first :: rest) := by
  have visible : isBlank first = false := by
    by_contra blank
    simp only [isBlank, Bool.not_eq_false, Bool.or_eq_true, beq_iff_eq] at blank
    rcases blank with ((rfl | rfl) | rfl) | rfl <;> cases digit
  rw [readValue, skipBlanks_cons visible]
  split
  case h_7 => exact readNumber_of_isDigit digit rest
  all_goals simp_all

/-! ## Pieces -/

/-- A piece stands in front of whatever comes after it. -/
def Piece.IsInFront (piece : Piece) : Prop :=
  ∀ text after, piece (text ++ after) = piece text ++ after

/--
A piece writes a value when the reader takes exactly the piece off a text and has that value,
with as much fuel as the text is long.
-/
structure Writes (piece : Piece) (value : Json) : Prop where
  inFront : piece.IsInFront
  reads : ∀ fuel after, (piece after).length < fuel → EndsNumber after →
    readValue fuel (piece after) = some (value, after)

/-- A piece writes a field when it is read as the name and the value of it. -/
structure WritesField (piece : Piece) (field : Option (List Char) × Json) : Prop where
  inFront : piece.IsInFront
  reads : ∀ fuel after, (piece after).length < fuel → EndsNumber after →
    readField fuel (piece after) = some (field, after)

theorem Piece.IsInFront.eq_append {piece : Piece} (inFront : piece.IsInFront)
    (after : List Char) : piece after = piece [] ++ after := by
  rw [← inFront, List.nil_append]

theorem Piece.IsInFront.length_le {piece : Piece} (inFront : piece.IsInFront)
    (after : List Char) : after.length ≤ (piece after).length := by
  rw [inFront.eq_append, List.length_append]
  exact Nat.le_add_left _ _

theorem writes_text (text : List Char) : Writes (writeText text) (.string text) where
  inFront _ _ := by simp [writeText]
  reads fuel after enough _ := by
    obtain ⟨fuel, rfl⟩ := Nat.exists_eq_add_one_of_ne_zero (Nat.ne_zero_of_lt enough)
    rw [writeText, List.cons_append, readValue, skipBlanks_cons rfl]
    simp [readString_flatMap_escape]

theorem writes_natural (number : Nat) : Writes (writeNatural number) (.natural number) where
  inFront _ _ := by simp [writeNatural]
  reads fuel after enough ends := by
    obtain ⟨fuel, rfl⟩ := Nat.exists_eq_add_one_of_ne_zero (Nat.ne_zero_of_lt enough)
    have nonempty : Nat.toDigits 10 number ≠ [] := Nat.toDigits_ne_nil
    obtain ⟨first, rest, digits⟩ := List.exists_cons_of_ne_nil nonempty
    have digit : first.isDigit = true :=
      Nat.isDigit_of_mem_toDigits (b := 10) (n := number) (by decide) (by decide) (by simp [digits])
    have number := readUnsigned_toDigits number ends
    rw [digits] at number
    rw [writeNatural, digits, List.cons_append, readValue_of_isDigit digit]
    exact number

/-! ## Pieces behind one another -/

/-- The pieces behind the first one, each with the comma in front of it. -/
def separatedBehind : List Piece → Piece
  | [], after => after
  | piece :: rest, after => ',' :: piece (separatedBehind rest after)

theorem separated_cons (piece : Piece) (rest : List Piece) (after : List Char) :
    separated (piece :: rest) after = piece (separatedBehind rest after) := by
  induction rest generalizing piece with
  | nil => rfl
  | cons next rest ih => rw [separated, ih, separatedBehind]

theorem endsNumber_separatedBehind {close : Char} (closes : close ∈ [',', ']', '\x7d'])
    (pieces : List Piece) (after : List Char) :
    EndsNumber (separatedBehind pieces (close :: after)) := by
  cases pieces with
  | nil => exact endsNumber_cons closes after
  | cons piece pieces => exact endsNumber_cons (by decide) _

theorem isInFront_separatedBehind {α : Type} {pieces : List Piece} {values : List α}
    (inFront : List.Forall₂ (fun piece _ => piece.IsInFront) pieces values) :
    Piece.IsInFront (separatedBehind pieces) := by
  induction inFront with
  | nil => exact fun _ _ => rfl
  | cons first _ ih =>
      intro text after
      rw [separatedBehind, separatedBehind, ih, first, List.cons_append]

theorem isInFront_separated {α : Type} {pieces : List Piece} {values : List α}
    (inFront : List.Forall₂ (fun piece _ => piece.IsInFront) pieces values) :
    Piece.IsInFront (separated pieces) := by
  cases inFront with
  | nil => exact fun _ _ => rfl
  | cons first rest =>
      intro text after
      rw [separated_cons, separated_cons, isInFront_separatedBehind rest, first]

theorem readItems_separatedBehind {pieces : List Piece} {values : List Json}
    (writes : List.Forall₂ Writes pieces values) (after : List Char) {fuel : Nat}
    (enough : (separatedBehind pieces (']' :: after)).length < fuel) :
    readItems fuel (separatedBehind pieces (']' :: after)) = some (values, after) := by
  induction writes generalizing fuel with
  | nil =>
      obtain ⟨fuel, rfl⟩ := Nat.exists_eq_add_one_of_ne_zero (Nat.ne_zero_of_lt enough)
      rw [separatedBehind, readItems, skipBlanks_cons rfl]
      rfl
  | cons first rest ih =>
      obtain ⟨fuel, rfl⟩ := Nat.exists_eq_add_one_of_ne_zero (Nat.ne_zero_of_lt enough)
      have enoughFirst := Nat.lt_of_succ_lt_succ enough
      have item := first.reads fuel _ enoughFirst (endsNumber_separatedBehind (by decide) _ after)
      have others := ih (Nat.lt_of_le_of_lt (first.inFront.length_le _) enoughFirst)
      rw [separatedBehind, readItems, skipBlanks_cons rfl]
      simp only [item, others, Option.bind_eq_bind, Option.bind_some]

theorem readFields_separatedBehind {pieces : List Piece}
    {fields : List (Option (List Char) × Json)} (writes : List.Forall₂ WritesField pieces fields)
    (after : List Char) {fuel : Nat}
    (enough : (separatedBehind pieces ('\x7d' :: after)).length < fuel) :
    readFields fuel (separatedBehind pieces ('\x7d' :: after)) = some (fields, after) := by
  induction writes generalizing fuel with
  | nil =>
      obtain ⟨fuel, rfl⟩ := Nat.exists_eq_add_one_of_ne_zero (Nat.ne_zero_of_lt enough)
      rw [separatedBehind, readFields, skipBlanks_cons rfl]
      rfl
  | cons first rest ih =>
      obtain ⟨fuel, rfl⟩ := Nat.exists_eq_add_one_of_ne_zero (Nat.ne_zero_of_lt enough)
      have enoughFirst := Nat.lt_of_succ_lt_succ enough
      have item := first.reads fuel _ enoughFirst (endsNumber_separatedBehind (by decide) _ after)
      have others := ih (Nat.lt_of_le_of_lt (first.inFront.length_le _) enoughFirst)
      rw [separatedBehind, readFields, skipBlanks_cons rfl]
      simp only [item, others, Option.bind_eq_bind, Option.bind_some]

/-! ## Arrays and objects -/

/-- A value that is read is no closing bracket, so the array that it begins is not empty. -/
theorem readValue_array {fuel : Nat} {text behind after : List Char} {first : Json}
    {others : List Json} (read : readValue fuel text = some (first, behind))
    (readOthers : readItems fuel behind = some (others, after)) :
    readValue (fuel + 1) ('[' :: text) = some (.array (first :: others), after) := by
  simp only [readValue, skipBlanks_cons (rfl : isBlank '[' = false)]
  split
  · next closes =>
      cases fuel with
      | zero => cases read
      | succ fuel =>
          rw [readValue, closes] at read
          cases read
  · simp only [readValue_skipBlanks, read, readOthers, Option.bind_eq_bind, Option.bind_some]

theorem readValue_object {fuel : Nat} {text behind after : List Char}
    {first : Option (List Char) × Json} {others : List (Option (List Char) × Json)}
    (read : readField fuel text = some (first, behind))
    (readOthers : readFields fuel behind = some (others, after)) :
    readValue (fuel + 1) ('\x7b' :: text) = some (.object (first :: others), after) := by
  simp only [readValue, skipBlanks_cons (rfl : isBlank '\x7b' = false)]
  split
  · next closes =>
      cases fuel with
      | zero => cases read
      | succ fuel =>
          rw [readField, closes] at read
          cases read
  · simp only [readField_skipBlanks, read, readOthers, Option.bind_eq_bind, Option.bind_some]

theorem writes_array {pieces : List Piece} {values : List Json}
    (writes : List.Forall₂ Writes pieces values) :
    Writes (writeArray pieces) (.array values) where
  inFront text after := by
    have inFront := isInFront_separated (writes.imp fun _ _ writes => writes.inFront)
    rw [writeArray, writeArray, ← List.cons_append, inFront, List.cons_append]
  reads fuel after enough _ := by
    obtain ⟨fuel, rfl⟩ := Nat.exists_eq_add_one_of_ne_zero (Nat.ne_zero_of_lt enough)
    have enoughInside := Nat.lt_of_succ_lt_succ enough
    cases writes with
    | nil => rfl
    | cons first rest =>
        rw [separated_cons] at enoughInside
        have item := first.reads fuel _ enoughInside
          (endsNumber_separatedBehind (by decide) _ after)
        have others := readItems_separatedBehind rest after
          (Nat.lt_of_le_of_lt (first.inFront.length_le _) enoughInside)
        rw [writeArray, separated_cons]
        exact readValue_array item others

theorem writes_object {pieces : List Piece} {fields : List (Option (List Char) × Json)}
    (writes : List.Forall₂ WritesField pieces fields) :
    Writes (writeObject pieces) (.object fields) where
  inFront text after := by
    have inFront := isInFront_separated (writes.imp fun _ _ writes => writes.inFront)
    rw [writeObject, writeObject, ← List.cons_append, inFront, List.cons_append]
  reads fuel after enough _ := by
    obtain ⟨fuel, rfl⟩ := Nat.exists_eq_add_one_of_ne_zero (Nat.ne_zero_of_lt enough)
    have enoughInside := Nat.lt_of_succ_lt_succ enough
    cases writes with
    | nil => rfl
    | cons first rest =>
        rw [separated_cons] at enoughInside
        have field := first.reads fuel _ enoughInside
          (endsNumber_separatedBehind (by decide) _ after)
        have others := readFields_separatedBehind rest after
          (Nat.lt_of_le_of_lt (first.inFront.length_le _) enoughInside)
        rw [writeObject, separated_cons]
        exact readValue_object field others

theorem writesField_of_writes (name : String) {piece : Piece} {value : Json}
    (writes : Writes piece value) :
    WritesField (writeField name piece) (some name.toList, value) where
  inFront text after := by
    rw [writeField, writeField, writes.inFront, ← List.cons_append, (writes_text _).inFront]
  reads fuel after enough ends := by
    obtain ⟨fuel, rfl⟩ := Nat.exists_eq_add_one_of_ne_zero (Nat.ne_zero_of_lt enough)
    have behindName := (writes_text name.toList).inFront.length_le (':' :: piece after)
    have read := writes.reads fuel after
      (Nat.lt_of_lt_of_le behindName (Nat.le_of_lt_succ enough)) ends
    rw [writeField, writeText, List.cons_append]
    simp only [readField, skipBlanks_cons (rfl : isBlank '"' = false),
      skipBlanks_cons (rfl : isBlank ':' = false), readString_flatMap_escape, read,
      Option.bind_eq_bind, Option.bind_some]

/-- What a piece writes is the value of the whole text, with blanks around the piece or not. -/
theorem Writes.read? {piece : Piece} {value : Json} (writes : Writes piece value)
    {before after : List Char} (blankBefore : ∀ character ∈ before, isBlank character)
    (blankAfter : ∀ character ∈ after, isBlank character) :
    Json.read? (before ++ piece [] ++ after) = some value := by
  have whole : before ++ piece [] ++ after = before ++ piece after := by
    rw [List.append_assoc, ← writes.inFront.eq_append]
  have read := writes.reads ((before ++ piece after).length + 1) after
    (by rw [List.length_append]; omega) (endsNumber_of_blank blankAfter)
  rw [whole, Json.read?, ← readValue_skipBlanks, skipBlanks_append blankBefore,
    readValue_skipBlanks, read]
  have nothing : skipBlanks after = [] := by
    rw [← List.append_nil after, skipBlanks_append blankAfter]
    rfl
  simp [nothing]

end TextTemplate.Json
