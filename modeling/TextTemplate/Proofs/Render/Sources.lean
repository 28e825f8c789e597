import TextTemplate.Proofs.Random.Answers
import TextTemplate.Render.Language
import TextTemplate.Render.Session

/-!
# Sources without state

Texts and choices stay what they are when they are used.  One use of such a source is decided
by the indices that it asks for.
-/

namespace TextTemplate

namespace Source

/-- A source that does not change when it is used. -/
def IsPlain : Source → Prop
  | .text _ => True
  | .choices _ => True
  | .function _ _ => False
  | .lazy _ _ => False

/-- The bounds of the indices that one use of a source asks for. -/
def bounds : Source → List Nat
  | .choices (first :: rest) => [(first :: rest).length]
  | _ => []

/-- The text of one use of a source without state, and the indices that it comes from. -/
def Chooses : Source → List Nat → List Char → Prop
  | .text content, indices, word => indices = [] ∧ word = content
  | .choices [], indices, word => indices = [] ∧ word = []
  | .choices (first :: rest), indices, word =>
      ∃ index, indices = [index] ∧ (first :: rest)[index]? = some word
  | .function _ _, _, _ => False
  | .lazy _ _, _, _ => False

theorem Chooses.withinBounds {source : Source} {indices : List Nat} {text : List Char}
    (chooses : source.Chooses indices text) : WithinBounds source.bounds indices := by
  cases source with
  | text content =>
      rcases chooses with ⟨rfl, -⟩
      trivial
  | choices options =>
      cases options with
      | nil =>
          rcases chooses with ⟨rfl, -⟩
          trivial
      | cons first rest =>
          rcases chooses with ⟨index, rfl, found⟩
          exact ⟨(List.getElem?_eq_some_iff.mp found).1, trivial⟩
  | function result calls => cases chooses
  | lazy item? pulled => cases chooses

theorem Chooses.unique {source : Source} {indices : List Nat} {first second : List Char}
    (chooses : source.Chooses indices first) (choosesToo : source.Chooses indices second) :
    first = second := by
  cases source with
  | text content => exact chooses.2.trans choosesToo.2.symm
  | choices options =>
      cases options with
      | nil => exact chooses.2.trans choosesToo.2.symm
      | cons option rest =>
          rcases chooses with ⟨index, rfl, found⟩
          rcases choosesToo with ⟨same, same', foundToo⟩
          cases same'
          exact Option.some.inj (found.symm.trans foundToo)
  | function result calls => cases chooses
  | lazy item? pulled => cases chooses

theorem Chooses.isPlain {source : Source} {indices : List Nat} {word : List Char}
    (chooses : source.Chooses indices word) : source.IsPlain := by
  cases source with
  | text content => trivial
  | choices options => trivial
  | function result calls => cases chooses
  | lazy item? pulled => cases chooses

theorem bounds_pos {source : Source} : ∀ bound ∈ source.bounds, 0 < bound := by
  unfold bounds
  split
  · simp
  · simp

/-- The texts of a source are those that it chooses by some indices. -/
theorem exists_chooses_iff {source : Source} {text : List Char} :
    (∃ indices, source.Chooses indices text) ↔ source.Language text := by
  cases source with
  | text content => simp [Chooses, Source.Language]
  | choices options =>
      cases options with
      | nil => simp [Chooses, Source.Language]
      | cons first rest =>
          simp only [Chooses, Source.Language, reduceCtorEq, false_and, or_false]
          rw [List.mem_iff_getElem?]
          constructor
          · rintro ⟨indices, index, rfl, found⟩
            exact ⟨index, found⟩
          · rintro ⟨index, found⟩
            exact ⟨[index], index, rfl, found⟩
  | function result calls => simp [Chooses, Source.Language]
  | lazy item? pulled => simp [Chooses, Source.Language]

end Source

namespace Bindings

/-- Only texts and choices are bound. -/
def IsPlain (bindings : Bindings) : Prop := ∀ entry ∈ bindings.entries, entry.2.IsPlain

/-- Nothing else than a text or choices is bound to a name. -/
def IsPlainAt (bindings : Bindings) (name : List Char) : Prop :=
  ∀ source, bindings.get? name = some source → source.IsPlain

theorem IsPlain.isPlainAt {bindings : Bindings} (plain : bindings.IsPlain)
    (name : List Char) : bindings.IsPlainAt name := by
  intro source found
  obtain ⟨before, behind, parts, -⟩ := List.lookup_eq_some_iff.mp found
  apply plain (name, source)
  rw [parts]
  simp

/-- The bounds of the indices that one use of a name asks for. -/
def bounds (bindings : Bindings) (name : List Char) : List Nat :=
  match bindings.get? name with
  | none => []
  | some source => source.bounds

/-- The text of one use of a name, and the indices that it comes from. -/
def Chooses (bindings : Bindings) (name : List Char) (indices : List Nat)
    (text : List Char) : Prop :=
  match bindings.get? name with
  | none => indices = [] ∧ text = []
  | some source => source.Chooses indices text

theorem Chooses.withinBounds {bindings : Bindings} {name text : List Char}
    {indices : List Nat} (chooses : bindings.Chooses name indices text) :
    WithinBounds (bindings.bounds name) indices := by
  unfold Chooses at chooses
  unfold bounds
  split
  · next missing =>
      rw [missing] at chooses
      rcases chooses with ⟨rfl, -⟩
      trivial
  · next source found =>
      rw [found] at chooses
      exact chooses.withinBounds

theorem Chooses.unique {bindings : Bindings} {name first second : List Char}
    {indices : List Nat} (chooses : bindings.Chooses name indices first)
    (choosesToo : bindings.Chooses name indices second) : first = second := by
  unfold Chooses at chooses choosesToo
  cases found : bindings.get? name with
  | none =>
      rw [found] at chooses choosesToo
      exact chooses.2.trans choosesToo.2.symm
  | some source =>
      rw [found] at chooses choosesToo
      exact Source.Chooses.unique chooses choosesToo

theorem Chooses.isPlainAt {bindings : Bindings} {name text : List Char} {indices : List Nat}
    (chooses : bindings.Chooses name indices text) : bindings.IsPlainAt name := by
  intro source found
  unfold Chooses at chooses
  rw [found] at chooses
  exact Source.Chooses.isPlain chooses

theorem bounds_pos {bindings : Bindings} {name : List Char} :
    ∀ bound ∈ bindings.bounds name, 0 < bound := by
  unfold bounds
  split
  · simp
  · exact Source.bounds_pos

theorem exists_chooses_iff {bindings : Bindings} {name text : List Char} :
    (∃ indices, bindings.Chooses name indices text) ↔ bindings.Language name text := by
  unfold Chooses Bindings.Language
  cases bindings.get? name with
  | none => simp
  | some source => exact Source.exists_chooses_iff

end Bindings

/--
One use of a name changes nothing but the randomness.  Its text is the one that the indices
choose, and only an index at or above its bound chooses none.
-/
theorem Session.resolve_ofIndex {σ : Type} {pick : Nat → σ → Nat × σ} {label : String}
    {name : List Char} {session : Session σ} (plain : session.bindings.IsPlainAt name) :
    ∃ text, session.resolve (Provider.ofIndex pick label) name =
        (text, { session with randomness :=
          (Pick.answers pick (session.bindings.bounds name) session.randomness).2 }) ∧
      (WithinBounds (session.bindings.bounds name)
          (Pick.answers pick (session.bindings.bounds name) session.randomness).1 →
        session.bindings.Chooses name
          (Pick.answers pick (session.bindings.bounds name) session.randomness).1 text) := by
  unfold Session.resolve Bindings.bounds Bindings.Chooses
  cases found : session.bindings.get? name with
  | none => exact ⟨[], rfl, fun within => ⟨rfl, rfl⟩⟩
  | some source =>
      cases source with
      | text content => exact ⟨content, rfl, fun within => ⟨rfl, rfl⟩⟩
      | choices options =>
          cases options with
          | nil => exact ⟨[], rfl, fun within => ⟨rfl, rfl⟩⟩
          | cons first rest =>
              refine ⟨((first :: rest)[(pick (first :: rest).length
                session.randomness).1]?).getD [], rfl, ?_⟩
              rintro ⟨below, -⟩
              refine ⟨_, rfl, ?_⟩
              rw [List.getElem?_eq_getElem below, Option.getD_some]
      | function result calls => exact absurd (plain _ found) id
      | lazy item? pulled => exact absurd (plain _ found) id

end TextTemplate
