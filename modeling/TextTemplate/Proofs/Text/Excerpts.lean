import Mathlib.Data.List.Basic
import TextTemplate.Diagnostic
import TextTemplate.Pattern.Parse

/-!
# Excerpts

A position counts lines and columns, and the lines of a text are split off without regard to
positions.  Both are followed through the text in front of a place: the part of a line that has
been read there is as long as the column says, and the whole line begins with that part.
-/

namespace TextTemplate

namespace Lines

theorem linesFrom_cons_of_ne {character : Char} (inLine : character ≠ '\n')
    (begun rest : List Char) :
    linesFrom begun (character :: rest) = linesFrom (character :: begun) rest := by
  rw [linesFrom]
  exact inLine

theorem dropReturn_of_ne {character : Char} (noReturn : character ≠ '\r') (begun : List Char) :
    dropReturn (character :: begun) = character :: begun := by
  rw [dropReturn]
  rintro line ⟨⟩
  exact noReturn rfl

/-- At most the latest character of a line is dropped. -/
theorem reverse_prefix_dropReturn (character : Char) (begun : List Char) :
    begun.reverse <+: (dropReturn (character :: begun)).reverse := by
  by_cases isReturn : character = '\r'
  · subst isReturn
    exact List.prefix_refl _
  · rw [dropReturn_of_ne isReturn, List.reverse_cons]
    exact List.prefix_append _ _

theorem mem_of_mem_dropReturn {character : Char} {begun : List Char}
    (member : character ∈ dropReturn begun) : character ∈ begun := by
  unfold dropReturn at member
  split at member
  · exact List.mem_cons_of_mem _ member
  · exact member

/-- No line holds a line feed. -/
theorem newline_not_mem_linesFrom {begun text line : List Char} (unbroken : '\n' ∉ begun)
    (member : line ∈ linesFrom begun text) : '\n' ∉ line := by
  fun_induction linesFrom begun text with
  | case1 begun nothing => cases member
  | case2 begun some =>
      obtain rfl := List.mem_singleton.mp member
      rwa [List.mem_reverse]
  | case3 begun rest ih =>
      rcases List.mem_cons.mp member with rfl | later
      · rw [List.mem_reverse]
        exact mt mem_of_mem_dropReturn unbroken
      · exact ih List.not_mem_nil later
  | case4 begun character rest inLine ih =>
      refine ih ?_ member
      rw [List.mem_cons, not_or]
      exact ⟨Ne.symm inLine, unbroken⟩

/-- The whole of a line of which a part has been read, latest character first. -/
def wholeLine (begun rest : List Char) : List Char := (linesFrom begun rest).headD []

theorem newline_not_mem_wholeLine {begun : List Char} (unbroken : '\n' ∉ begun)
    (rest : List Char) : '\n' ∉ wholeLine begun rest := by
  rw [wholeLine]
  cases same : linesFrom begun rest with
  | nil => exact List.not_mem_nil
  | cons line later =>
      have member : line ∈ linesFrom begun rest := by simp [same]
      exact newline_not_mem_linesFrom unbroken member

/-- At the end of a text the whole line has been read. -/
theorem wholeLine_nil (begun : List Char) : wholeLine begun [] = begun.reverse := by
  cases begun with
  | nil => rfl
  | cons character begun => simp [wholeLine, linesFrom]

/-- A line that goes on begins with the part that has been read. -/
theorem reverse_prefix_wholeLine {begun rest : List Char} (goesOn : rest.head? ≠ some '\n') :
    begun.reverse <+: wholeLine begun rest := by
  induction rest generalizing begun with
  | nil => exact ⟨[], by rw [wholeLine_nil, List.append_nil]⟩
  | cons character rest ih =>
      have inLine : character ≠ '\n' := by simpa using goesOn
      rw [wholeLine, linesFrom_cons_of_ne inLine, ← wholeLine]
      by_cases ends : rest.head? = some '\n'
      · -- A carriage return here belongs to the end of the line.
        obtain ⟨later, rfl⟩ := List.head?_eq_some_iff.mp ends
        exact reverse_prefix_dropReturn character begun
      · have further : (character :: begun).reverse <+: wholeLine (character :: begun) rest :=
          ih ends
        rw [List.reverse_cons] at further
        exact (List.prefix_append _ _).trans further

/-- The whole line goes on with the next character, unless that ends the line. -/
theorem wholeLine_getElem? {begun rest : List Char} {character : Char}
    (inLine : character ≠ '\n') (noEnd : character = '\r' → rest.head? ≠ some '\n') :
    (wholeLine begun (character :: rest))[begun.length]? = some character := by
  have same : wholeLine begun (character :: rest) = wholeLine (character :: begun) rest := by
    rw [wholeLine, linesFrom_cons_of_ne inLine, ← wholeLine]
  have begins : (character :: begun).reverse <+: wholeLine begun (character :: rest) := by
    rw [same]
    by_cases ends : rest.head? = some '\n'
    · obtain ⟨later, rfl⟩ := List.head?_eq_some_iff.mp ends
      have noReturn : character ≠ '\r' := fun isReturn => noEnd isReturn ends
      rw [wholeLine, linesFrom, dropReturn_of_ne noReturn]
      exact List.prefix_refl _
    · exact reverse_prefix_wholeLine ends
  obtain ⟨later, whole⟩ := begins
  rw [← whole, List.reverse_cons]
  simp

end Lines

open Lines

namespace Position

/--
Behind some text a position has passed as many lines as have been finished there, and stands in
its line behind what has been read of that line.
-/
theorem exists_foldl_next (passed rest : List Char) {begun : List Char} (unbroken : '\n' ∉ begun)
    {position : Position} (column : position.column = begun.length + 1) :
    ∃ later finished, '\n' ∉ later ∧
      (passed.foldl next position).line = position.line + finished ∧
      (passed.foldl next position).column = later.length + 1 ∧
      (linesFrom begun (passed ++ rest)).drop finished = linesFrom later rest := by
  induction passed generalizing begun position with
  | nil => exact ⟨begun, 0, unbroken, rfl, column, rfl⟩
  | cons character passed ih =>
      by_cases ends : character = '\n'
      · subst ends
        obtain ⟨later, finished, unbrokenLater, lines, columns, rests⟩ :=
          @ih [] List.not_mem_nil (position.next '\n') rfl
        refine ⟨later, finished + 1, unbrokenLater, ?_, columns, rests⟩
        rw [List.foldl_cons, lines]
        exact Nat.add_right_comm _ _ _
      · have stays : position.next character =
            ⟨position.offset + 1, position.line, position.column + 1⟩ := if_neg ends
        have unbrokenNext : '\n' ∉ character :: begun := by
          rw [List.mem_cons, not_or]
          exact ⟨Ne.symm ends, unbroken⟩
        rw [List.foldl_cons, stays, List.cons_append, linesFrom_cons_of_ne ends]
        exact ih unbrokenNext (congrArg Nat.succ column)

end Position

/-- The excerpt for a place shows its line up to the caret and beyond. -/
theorem excerpt_ofOffset (text : List Char) (offset : Nat) :
    ∃ begun, '\n' ∉ begun ∧ (Position.ofOffset text offset).column = begun.length + 1 ∧
      Diagnostic.excerpt text (.ofOffset text offset) =
        wholeLine begun (text.drop offset) ++ '\n' ::
          (List.replicate begun.length ' ' ++ ['^', '\n']) := by
  obtain ⟨begun, finished, unbroken, line, column, rests⟩ :=
    Position.exists_foldl_next (text.take offset) (text.drop offset) List.not_mem_nil
      (rfl : Position.start.column = _)
  rw [List.take_append_drop] at rests
  refine ⟨begun, unbroken, column, ?_⟩
  have shown : (lines text).getD finished [] = wholeLine begun (text.drop offset) := by
    rw [wholeLine, ← rests, List.headD_eq_head?_getD, List.head?_drop,
      List.getD_eq_getElem?_getD]
    rfl
  rw [Diagnostic.excerpt, Position.ofOffset, line, column, ← shown]
  simp [Position.start]

/-- An error stands at a place of the pattern or at its end. -/
theorem exists_offset_of_parse {limits : Limits} {pattern : List Char} {error : SyntaxError}
    (failed : parse limits pattern = .error error) :
    ∃ offset ≤ pattern.length, error.position = .ofOffset pattern offset := by
  rw [parse] at failed
  cases read : readTree limits .root pattern with
  | ok tree =>
      rw [read] at failed
      cases failed
  | error failure =>
      rw [read] at failed
      cases failed
      exact ⟨_, Nat.sub_le _ _, rfl⟩

/--
The message about an error shows a line and a caret below its column.  The character above the
caret is the one where the error was noticed, unless that ends its line; at the end of the pattern
the caret stands behind the line.
-/
theorem caret_below_error {limits : Limits} {pattern : List Char} {error : SyntaxError}
    (failed : parse limits pattern = .error error) :
    let place := error.position
    place.offset ≤ pattern.length ∧ 1 ≤ place.column ∧
      ∃ shownLine, '\n' ∉ shownLine ∧
        (Diagnostic.ofSyntaxError error).describeIn pattern =
          (Diagnostic.ofSyntaxError error).describe ++ "\n" ++ String.ofList
            (shownLine ++ '\n' :: (List.replicate (place.column - 1) ' ' ++ ['^', '\n'])) ∧
        (∀ character, pattern[place.offset]? = some character → character ≠ '\n' →
          ¬ (character = '\r' ∧ pattern[place.offset + 1]? = some '\n') →
            shownLine[place.column - 1]? = some character) ∧
        (place.offset = pattern.length → place.column = shownLine.length + 1) := by
  intro place
  obtain ⟨offset, inside, isPlace⟩ := exists_offset_of_parse failed
  obtain ⟨begun, unbroken, column, excerpt⟩ := excerpt_ofOffset pattern offset
  have sameOffset : place.offset = offset := by
    simp only [place, isPlace, Position.offset_ofOffset, Nat.min_eq_left inside]
  have width : place.column = begun.length + 1 := by rw [← column, ← isPlace]
  rw [sameOffset, width, Nat.add_sub_cancel]
  refine ⟨inside, Nat.succ_pos _, wholeLine begun (pattern.drop offset),
    newline_not_mem_wholeLine unbroken _, ?_, ?_, ?_⟩
  · rw [← excerpt, ← isPlace]
    rfl
  · intro character here inLine noEnd
    have rest : pattern.drop offset = character :: pattern.drop (offset + 1) := by
      obtain ⟨within, rfl⟩ := List.getElem?_eq_some_iff.mp here
      exact List.drop_eq_getElem_cons within
    rw [rest]
    refine wholeLine_getElem? inLine fun isReturn ends => noEnd ⟨isReturn, ?_⟩
    rwa [List.head?_drop] at ends
  · intro atEnd
    rw [atEnd, List.drop_length, wholeLine_nil, List.length_reverse]

/-- The line shown holds a carriage return of its own, but neither of those that end a line. -/
theorem caret_below_stray_brace :
    let pattern := "a\r\n\u00e9\r\x7d\r\nb".toList
    let error : SyntaxError := ⟨.strayMeta '\x7d', ⟨5, 2, 3⟩⟩
    parse {} pattern = .error error ∧ pattern[5]? = some '\x7d' ∧ pattern[6]? = some '\r' ∧
      ∃ shownLine : List Char, '\n' ∉ shownLine ∧ shownLine[2]? = some '\x7d' ∧
        (Diagnostic.ofSyntaxError error).describeIn pattern =
          (Diagnostic.ofSyntaxError error).describe ++ "\n" ++
            String.ofList (shownLine ++ "\n  ^\n".toList) := by
  intro pattern error
  have failed : parse {} pattern = .error error := by decide +kernel
  have here : pattern[5]? = some '\x7d' := by decide
  obtain ⟨-, -, shownLine, unbroken, shown, above, -⟩ := caret_below_error failed
  exact ⟨failed, here, by decide, shownLine, unbroken, above _ here (by decide) (by decide), shown⟩

end TextTemplate
