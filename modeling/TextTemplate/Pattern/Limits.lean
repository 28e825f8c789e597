/-!
# Structural characters and reading limits
-/

namespace TextTemplate

/-- The characters that structure a pattern unless a backslash precedes them. -/
def metaCharacters : List Char := ['[', ']', '\x7b', '\x7d', '(', ')', '|', '&', '$']

/-- Whether a character has structural meaning. -/
def isMeta (character : Char) : Bool :=
  metaCharacters.contains character

/-- What a pattern may ask for at most. -/
structure Limits where
  /-- How deep groups may nest. -/
  maxDepth : Nat := 1000
  /-- How far apart the ends of a range may lie. -/
  maxRangeSpan : Nat := 10000
  /-- How often a class may be repeated. -/
  maxRepeat : Nat := 1000000
deriving DecidableEq, Repr

/-- A backslash has no structural meaning of its own: it only takes away that of others. -/
theorem isMeta_backslash : isMeta '\\' = false := by decide

theorem ne_backslash_of_isMeta {character : Char} (structural : isMeta character = true) :
    character ≠ '\\' := by
  rintro rfl
  rw [isMeta_backslash] at structural
  cases structural

end TextTemplate
