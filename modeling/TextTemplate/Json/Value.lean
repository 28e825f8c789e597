/-!
# JSON values

The part of a JSON text that a reader of trees can use.  Everything else that is well formed
is kept as a value without content.
-/

namespace TextTemplate

/-- A JSON value, as far as trees need to tell values apart. -/
inductive Json where
  /-- A number written with digits alone. -/
  | natural (value : Nat)
  /-- A string whose escapes name characters only. -/
  | string (content : List Char)
  | array (items : List Json)
  /-- Fields in the order of the text.  A name whose escapes name no character is absent. -/
  | object (fields : List (Option (List Char) × Json))
  /-- Literals, the other numbers, and strings that name half a surrogate pair. -/
  | other
deriving Repr

end TextTemplate
