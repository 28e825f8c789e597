import TextTemplate.Text.Position

/-!
# Reading places

A cursor walks a text one code point at a time.  It starts before the first character and
may step once past the last one; every look outside the text finds nothing.
-/

namespace TextTemplate

/--
A reading place in a text.  `passed` counts the steps made: after `n + 1` steps the cursor
stands on the character with index `n`.
-/
structure Cursor where
  text : Array Char
  passed : Nat
  passed_le : passed ≤ text.size + 1

namespace Cursor

/-- The cursor before the first character. -/
def ofText (text : List Char) : Cursor :=
  ⟨text.toArray, 0, Nat.zero_le _⟩

/-- The character under the cursor. -/
def current? (cursor : Cursor) : Option Char :=
  match cursor.passed with
  | 0 => none
  | index + 1 => cursor.text[index]?

/-- The character one step ahead. -/
def next? (cursor : Cursor) : Option Char :=
  cursor.text[cursor.passed]?

/-- The character one step back; nothing precedes the first one. -/
def previous? (cursor : Cursor) : Option Char :=
  match cursor.passed with
  | index + 2 => cursor.text[index]?
  | _ => none

/-- One step forward, unless the cursor already stands past the end. -/
def advance (cursor : Cursor) : Cursor :=
  if room : cursor.passed ≤ cursor.text.size then
    ⟨cursor.text, cursor.passed + 1, Nat.succ_le_succ room⟩
  else
    cursor

/-- The place of the character under the cursor; before the first step, the start. -/
def position (cursor : Cursor) : Position :=
  .ofOffset cursor.text.toList (cursor.passed - 1)

/-- What lies ahead is what a step reaches. -/
theorem current?_advance (cursor : Cursor) :
    cursor.advance.current? = cursor.next? := by
  by_cases room : cursor.passed ≤ cursor.text.size
  · simp [advance, current?, next?, room]
  · have bound := cursor.passed_le
    have past : cursor.passed = cursor.text.size + 1 := by omega
    have stays : cursor.advance = cursor := by simp [advance, room]
    simp [stays, current?, next?, past]

end Cursor

end TextTemplate
