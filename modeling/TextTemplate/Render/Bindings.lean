import TextTemplate.Text.Quoted
import TextTemplate.Text.WordSize

/-!
# Bindings

The names that a pattern refers to are bound to sources of text.  A source may change when it
is used: a function counts its calls, and a lazy list moves on to its next item.
-/

namespace TextTemplate

/-- Where the text for a name comes from. -/
inductive Source where
  /-- Always the same text. -/
  | text (content : List Char)
  /-- One of several texts, chosen anew every time. -/
  | choices (options : List (List Char))
  /-- The result of one more call; `calls` counts those already made. -/
  | function (result : Nat → List Char) (calls : Nat)
  /-- The next item, while there is one; `pulled` counts those already taken. -/
  | lazy (item? : Nat → Option (List Char)) (pulled : Nat)

namespace Source

/-- A decimal text with a sign in front of negative numbers. -/
def decimal (number : Int) : List Char :=
  (toString number).toList

def ofInt (number : Int) : Source := .text (decimal number)

def ofBool (value : Bool) : Source := .text (toString value).toList

/-- A function that gives the same text every time. -/
def constant (content : List Char) : Source := .function (fun _ => content) 0

/-- A function that counts in equal steps, in signed words of 64 bits. -/
def counter (start step : Int) : Source :=
  .function (fun calls => decimal ((start + calls * step).bmod wordSize)) 0

/-- The listed texts, one after the other. -/
def items (texts : List (List Char)) : Source := .lazy (fun pulled => texts[pulled]?) 0

/-- The integers from `first` up to, and without, `past`. -/
def integers (first past : Int) : Source :=
  .lazy (fun pulled => if first + pulled < past then some (decimal (first + pulled)) else none) 0

/-- A source as it is shown to a person; what a function or a lazy list holds is not shown. -/
def describe : Source → List Char
  | .text content => "Text(".toList ++ quoted content ++ [')']
  | .choices options => "Choices(".toList ++ quotedList options ++ [')']
  | .function _ _ => "Function(<function>)".toList
  | .lazy _ _ => "Lazy(<function>)".toList

end Source

/-- Names and what they are bound to, every name once. -/
structure Bindings where
  entries : List (List Char × Source)

namespace Bindings

/-- Nothing is bound. -/
def empty : Bindings := ⟨[]⟩

/-- How many names are bound. -/
def size (bindings : Bindings) : Nat := bindings.entries.length

/-- What a name is bound to. -/
def get? (bindings : Bindings) (name : List Char) : Option Source :=
  bindings.entries.lookup name

/-- Binds a name; an earlier binding of it is forgotten. -/
def insert (bindings : Bindings) (name : List Char) (source : Source) : Bindings :=
  ⟨(name, source) :: bindings.entries.filter fun entry => entry.1 != name⟩

theorem get?_insert_self (bindings : Bindings) (name : List Char) (source : Source) :
    (bindings.insert name source).get? name = some source := by
  simp [insert, get?]

/-- Binding a name leaves the other names alone. -/
theorem get?_insert_of_ne (bindings : Bindings) {name other : List Char} (source : Source)
    (differ : other ≠ name) :
    (bindings.insert name source).get? other = bindings.get? other := by
  have apart : (other == name) = false := by simpa using differ
  simp only [insert, get?, List.lookup_cons, apart]
  induction bindings.entries with
  | nil => rfl
  | cons entry rest ih =>
      obtain ⟨bound, bindingSource⟩ := entry
      by_cases same : bound = name
      · subst same
        simp [List.lookup_cons, apart, ih]
      · have kept : (bound != name) = true := by simpa using same
        simp only [List.filter_cons, kept, ↓reduceIte, List.lookup_cons]
        split
        · rfl
        · exact ih

end Bindings

end TextTemplate
