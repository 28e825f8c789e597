import Mathlib.Data.List.Basic
import TextTemplate.Proofs.Pattern.Writings
import TextTemplate.Text.Quoted

/-!
# Telling quoted characters apart

What stands for a character in quotes ends by itself: no more than its own part of the text is
needed to tell which character it is.  So a text is known from its quoted form, and so are some
characters that are shown one behind the other with nothing between them.  Numbers and other
runs end at the first character that does not belong to them.
-/

namespace TextTemplate

/-! ## Runs and codes -/

/-- A run and the character that ends it are known from a text that begins with them. -/
theorem eq_of_run_append_eq {holds : Char → Bool} {run run' : List Char} {stop stop' : Char}
    {rest rest' : List Char} (inRun : ∀ character ∈ run, holds character = true)
    (stops : holds stop = false) (inRun' : ∀ character ∈ run', holds character = true)
    (stops' : holds stop' = false) (same : run ++ stop :: rest = run' ++ stop' :: rest') :
    run = run' ∧ stop = stop' ∧ rest = rest' := by
  have sameRun := congrArg (List.takeWhile holds) same
  rw [takeWhile_run inRun stops, takeWhile_run inRun' stops'] at sameRun
  have sameRest := congrArg (List.dropWhile holds) same
  rw [dropWhile_run inRun stops, dropWhile_run inRun' stops'] at sameRest
  exact ⟨sameRun, List.cons.inj sameRest⟩

/-- Items are known from their codes in a row when each code ends by itself. -/
theorem eq_of_flatMap_eq {α β : Type} {code : α → List β} {items items' : List α}
    (notEmpty : ∀ item, code item ≠ [])
    (separates : ∀ item ∈ items, ∀ item' ∈ items', ∀ rest rest',
      code item ++ rest = code item' ++ rest' → item = item')
    (same : items.flatMap code = items'.flatMap code) : items = items' := by
  induction items generalizing items' with
  | nil =>
      cases items' with
      | nil => rfl
      | cons item' rest' => simp [notEmpty] at same
  | cons item rest ih =>
      cases items' with
      | nil => simp [notEmpty] at same
      | cons item' rest' =>
          rw [List.flatMap_cons, List.flatMap_cons] at same
          obtain rfl := separates item List.mem_cons_self item' List.mem_cons_self _ _ same
          have later := ih
            (fun next member next' member' =>
              separates next (List.mem_cons_of_mem _ member) next' (List.mem_cons_of_mem _ member'))
            (List.append_cancel_left same)
          rw [later]

/-! ## Numbers -/

section Digits

variable {base : Nat}

/-- The last digit and those in front of it. -/
theorem toDigits_eq_append (more : 1 < base) (number : Nat) :
    Nat.toDigits base number =
      (if number < base then [] else Nat.toDigits base (number / base)) ++
        [Nat.digitChar (number % base)] := by
  split
  · next single =>
      rw [Nat.toDigits_of_lt_base single, Nat.mod_eq_of_lt single]
      rfl
  · next several => exact Nat.toDigits_of_base_le more (Nat.le_of_not_lt several)

theorem digitChar_injective : ∀ digit < 16, ∀ digit' < 16,
    Nat.digitChar digit = Nat.digitChar digit' → digit = digit' := by
  decide

/-- A number is known from its digits. -/
theorem toDigits_injective (more : 1 < base) (atMost : base ≤ 16) :
    Function.Injective (Nat.toDigits base) := by
  intro number
  induction number using Nat.strongRecOn with
  | ind number ih =>
      intro number' same
      have digit (some : Nat) : some % base < 16 :=
        Nat.lt_of_lt_of_le (Nat.mod_lt _ (by omega)) atMost
      rw [toDigits_eq_append more number, toDigits_eq_append more number'] at same
      obtain ⟨front, last⟩ := List.append_inj' same rfl
      have sameLast : number % base = number' % base :=
        digitChar_injective _ (digit number) _ (digit number') (List.cons.inj last).1
      by_cases single : number < base <;> by_cases single' : number' < base
      · rwa [Nat.mod_eq_of_lt single, Nat.mod_eq_of_lt single'] at sameLast
      · rw [if_pos single, if_neg single'] at front
        exact absurd front.symm (Nat.toDigits_ne_nil)
      · rw [if_neg single, if_pos single'] at front
        exact absurd front (Nat.toDigits_ne_nil)
      · rw [if_neg single, if_neg single'] at front
        have sameFront : number / base = number' / base :=
          ih _ (Nat.div_lt_self (by omega) more) front
        rw [← Nat.div_add_mod number base, sameFront, sameLast, Nat.div_add_mod]

theorem mem_toDigits (more : 1 < base) {number : Nat} {character : Char}
    (member : character ∈ Nat.toDigits base number) :
    ∃ digit < base, character = Nat.digitChar digit := by
  induction number using Nat.strongRecOn with
  | ind number ih =>
      rw [toDigits_eq_append more, List.mem_append, List.mem_singleton] at member
      rcases member with front | last
      · split at front
        · cases front
        · exact ih _ (Nat.div_lt_self (by omega) more) front
      · exact ⟨_, Nat.mod_lt _ (by omega), last⟩

end Digits

namespace Quoted

theorem hexDigits_ne_brace : ∀ digit < 16, (Nat.digitChar digit != '\x7d') = true := by
  decide

theorem mem_hexDigits_ne_brace {number : Nat} :
    ∀ character ∈ hexDigits number, (character != '\x7d') = true := by
  intro character member
  obtain ⟨digit, below, rfl⟩ := mem_toDigits (by decide) member
  exact hexDigits_ne_brace digit below

/-! ## Escapes -/

/-- The character that a letter behind a backslash stands for. -/
def unescape : Char → Char
  | '0' => '\x00'
  | 't' => '\t'
  | 'r' => '\r'
  | 'n' => '\n'
  | letter => letter

/-- The ways to show a character. -/
inductive Shows : List Char → Char → Prop where
  | plain {character : Char} (unescaped : character ≠ '\\') (inLine : character ≠ '\n') :
      Shows [character] character
  | short (letter : Char) (noCode : letter ≠ 'u') (inLine : letter ≠ '\n') :
      Shows ['\\', letter] (unescape letter)
  | codePoint (character : Char) : Shows (codePointEscape character) character

namespace Shows

variable {shown shown' rest rest' : List Char} {character character' : Char}

theorem ne_nil (shows : Shows shown character) : shown ≠ [] := by
  cases shows <;> exact List.cons_ne_nil _ _

/-- A character is known from a text that begins with what shows it. -/
theorem eq_of_append_eq (shows : Shows shown character) (shows' : Shows shown' character')
    (same : shown ++ rest = shown' ++ rest') : character = character' := by
  cases shows with
  | plain unescaped inLine =>
      cases shows' with
      | plain unescaped' inLine' => exact (List.cons.inj same).1
      | short letter' noCode' inLine' => exact absurd (List.cons.inj same).1 unescaped
      | codePoint => exact absurd (List.cons.inj same).1 unescaped
  | short letter noCode inLine =>
      cases shows' with
      | plain unescaped' inLine' => exact absurd (List.cons.inj same).1.symm unescaped'
      | short letter' noCode' inLine' => rw [(List.cons.inj (List.cons.inj same).2).1]
      | codePoint => exact absurd (List.cons.inj (List.cons.inj same).2).1 noCode
  | codePoint =>
      cases shows' with
      | plain unescaped' inLine' => exact absurd (List.cons.inj same).1.symm unescaped'
      | short letter' noCode' inLine' =>
          exact absurd (List.cons.inj (List.cons.inj same).2).1.symm noCode'
      | codePoint =>
          simp only [codePointEscape, List.cons_append, List.nil_append, List.append_assoc,
            List.cons.injEq, true_and] at same
          obtain ⟨digits, -, -⟩ := eq_of_run_append_eq mem_hexDigits_ne_brace rfl
            mem_hexDigits_ne_brace rfl same
          exact Char.toNat_inj.mp (toDigits_injective (by decide) (Nat.le_refl 16) digits)

theorem newline_not_mem (shows : Shows shown character) : '\n' ∉ shown := by
  cases shows with
  | plain unescaped inLine => simpa using Ne.symm inLine
  | short letter noCode inLine => simpa using Ne.symm inLine
  | codePoint =>
      have digits : '\n' ∉ hexDigits character.toNat := by
        intro member
        obtain ⟨digit, below, same⟩ := mem_toDigits (by decide) member
        revert same
        exact (by decide : ∀ digit < 16, '\n' ≠ Nat.digitChar digit) digit below
      simp [codePointEscape, digits]

end Shows

theorem escape_shows (character : Char) : Shows (escape character) character := by
  fun_cases escape character with
  | case1 => subst_vars; exact .short '0' (by decide) (by decide)
  | case2 => subst_vars; exact .short 't' (by decide) (by decide)
  | case3 => subst_vars; exact .short 'r' (by decide) (by decide)
  | case4 => subst_vars; exact .short 'n' (by decide) (by decide)
  | case5 => subst_vars; exact .short '\\' (by decide) (by decide)
  | case6 => exact .codePoint character
  | case7 _ _ _ inLine unescaped _ => exact .plain unescaped inLine

theorem escapeInText_shows (character : Char) : Shows (escapeInText character) character := by
  unfold escapeInText
  split
  · next isQuote =>
      subst isQuote
      exact .short '"' (by decide) (by decide)
  · exact escape_shows character

theorem escapeAlone_shows (character : Char) : Shows (escapeAlone character) character := by
  unfold escapeAlone
  split
  · next isQuote =>
      subst isQuote
      exact .short '"' (by decide) (by decide)
  · split
    · next isQuote =>
        subst isQuote
        exact .short '\'' (by decide) (by decide)
    · exact escape_shows character

section Texts

variable {written : Char → List Char} (shows : ∀ character, Shows (written character) character)

include shows

/-- A text is known from what shows its characters in a row. -/
theorem flatMap_injective_of_shows : Function.Injective (List.flatMap written) := by
  intro text text' same
  exact eq_of_flatMap_eq (fun character => (shows character).ne_nil)
    (fun character _ character' _ _ _ => (shows character).eq_of_append_eq (shows character')) same

theorem newline_not_mem_flatMap (text : List Char) : '\n' ∉ text.flatMap written := by
  rw [List.mem_flatMap]
  rintro ⟨character, -, member⟩
  exact (shows character).newline_not_mem member

end Texts

end Quoted

open Quoted

/-- A text is known from its quoted form. -/
theorem quoted_injective : Function.Injective quoted := by
  intro text text' same
  rw [quoted, quoted, List.append_left_inj, List.append_right_inj] at same
  exact flatMap_injective_of_shows escapeInText_shows same

theorem newline_not_mem_quoted (text : List Char) : '\n' ∉ quoted text := by
  simp [quoted, newline_not_mem_flatMap escapeInText_shows]

end TextTemplate
