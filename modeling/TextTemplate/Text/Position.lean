/-!
# Positions in a text

Offsets count code points.  Lines and columns start at one, and a line feed is the only
character that ends a line.
-/

namespace TextTemplate

/-- A place in a text: how many code points precede it, and its line and column. -/
structure Position where
  offset : Nat
  line : Nat
  column : Nat
deriving DecidableEq, Repr

namespace Position

/-- The place before the first character. -/
def start : Position := ⟨0, 1, 1⟩

/-- The place behind one more character. -/
def next (position : Position) (character : Char) : Position :=
  if character = '\n' then
    ⟨position.offset + 1, position.line + 1, 1⟩
  else
    ⟨position.offset + 1, position.line, position.column + 1⟩

/-- The place behind the first `offset` characters; an offset past the end means the end. -/
def ofOffset (text : List Char) (offset : Nat) : Position :=
  (text.take offset).foldl next start

/-- The words for a place: its line and its column. -/
def describe (position : Position) : String :=
  s!"line {position.line}, column {position.column}"

theorem offset_foldl_next (position : Position) (text : List Char) :
    (text.foldl next position).offset = position.offset + text.length := by
  induction text generalizing position with
  | nil => rfl
  | cons character rest ih =>
      simp only [List.foldl_cons, ih, List.length_cons]
      unfold next
      split <;> simp <;> omega

/-- The offset is clamped to the text and otherwise kept. -/
theorem offset_ofOffset (text : List Char) (offset : Nat) :
    (ofOffset text offset).offset = min offset text.length := by
  simp [ofOffset, offset_foldl_next, start]

end Position

end TextTemplate
