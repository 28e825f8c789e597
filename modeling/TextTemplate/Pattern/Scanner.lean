import TextTemplate.Pattern.Chain
import TextTemplate.Pattern.CharacterSet
import TextTemplate.Pattern.Reference
import TextTemplate.Text.Cursor

/-!
# Scanning in place

A pattern can also be read with a single cursor that all routines move.  A routine is entered with
the cursor on the character that selected it, and leaves the cursor on the last character that it
has taken.  Most routines are loops, and a loop goes on only if its round has moved the cursor.
-/

namespace TextTemplate

/-- Why a scan ends without a value. -/
inductive Stop where
  /-- A fault, with the cursor where it was noticed. -/
  | fault (fault : SyntaxFault) (place : Cursor)
  /-- A loop wants to go on from where it was. -/
  | stalled

/-- The outcome of moving a cursor: a value and the place where the cursor is left. -/
abbrev Scan (α : Type) := Except Stop (α × Cursor)

/-- What one round of a loop leads to. -/
inductive Round (σ α : Type) where
  | again (state : σ)
  | done (value : α)

/-- How many steps a cursor has before it. -/
def Cursor.unread (cursor : Cursor) : Nat := cursor.text.size + 1 - cursor.passed

namespace Scan

variable {σ α : Type}

/-- Stops at the cursor. -/
def refuse (fault : SyntaxFault) (cursor : Cursor) : Scan α := .error (.fault fault cursor)

/-- Runs the rounds of a loop, as long as each of them moves the cursor on. -/
def rounds (round : σ → Cursor → Scan (Round σ α)) (state : σ) (cursor : Cursor) : Scan α :=
  match round state cursor with
  | .error stop => .error stop
  | .ok (.done value, after) => .ok (value, after)
  | .ok (.again later, after) =>
      if after.unread < cursor.unread then rounds round later after else .error .stalled
termination_by cursor.unread

/-! ## Literal text -/

/-- Goes on to the next character if that is literal text as well. -/
def literalStep (text : List Char) (cursor : Cursor) :
    Scan (Round (List Char) (List Char)) :=
  match cursor.next? with
  | none => .ok (.done text, cursor)
  | some next =>
      if isMeta next then .ok (.done text, cursor) else .ok (.again text, cursor.advance)

/-- Takes the character under the cursor, or the one behind a backslash. -/
def literalRound (text : List Char) (cursor : Cursor) :
    Scan (Round (List Char) (List Char)) :=
  match cursor.current? with
  | none => .ok (.done text, cursor)
  | some '\\' =>
      match cursor.advance.current? with
      | none => refuse .danglingEscape cursor.advance
      | some escaped => literalStep (text ++ [escaped]) cursor.advance
  | some character => literalStep (text ++ [character]) cursor

/-- Scans literal text from its first character on. -/
def literal (cursor : Cursor) : Scan Node :=
  (rounds literalRound [] cursor).map fun (text, after) => (.literal text, after)

/-! ## Quantifiers -/

/-- The number written by some digits; the cursor stands behind them. -/
def number (digits : List Char) (cursor : Cursor) : Except Stop Nat :=
  let value := Nat.ofDigitChars 10 digits 0
  if value < wordSize then .ok value else .error (.fault (.numberTooLarge digits) cursor)

/-- Takes the next character of a quantifier; the state is a lower bound and some digits. -/
def quantifierRound (state : Option Nat × List Char) (cursor : Cursor) :
    Scan (Round (Option Nat × List Char) (Option Nat × List Char)) :=
  let on := cursor.advance
  match on.current? with
  | none => refuse .unterminatedQuantifier on
  | some '\x7d' =>
      if on.previous?.any isSeparator then refuse .missingUpperBound on else .ok (.done state, on)
  | some character =>
      if isSeparator character then
        if state.1.isSome then refuse .secondSeparator on
        else (number state.2 on).map fun low => (.again (some low, []), on)
      else if character.isDigit then .ok (.again (state.1, state.2 ++ [character]), on)
      else refuse (.nonDigit character) on

/-- The repetition for a lower bound and the digits of the upper one; the cursor stands behind. -/
def repetition (limits : Limits) (low? : Option Nat) (digits : List Char) (cursor : Cursor) :
    Scan Repetition :=
  (number digits cursor).bind fun high =>
    if limits.maxRepeat < high then refuse (.repetitionTooLarge high limits.maxRepeat) cursor
    else
      match low? with
      | none => .ok (.exactly high, cursor)
      | some low =>
          if high < low then refuse (.boundsReversed low high) cursor
          else .ok (.between low high, cursor)

/-- Scans a quantifier from its opening brace on. -/
def quantifier (limits : Limits) (cursor : Cursor) : Scan Repetition :=
  (rounds quantifierRound (none, []) cursor).bind fun ((low?, digits), after) =>
    repetition limits low? digits after

/-! ## Character sets -/

/-- Takes a range; the cursor stands on its first character, and a hyphen follows. -/
def rangeRound (limits : Limits) (members : List Char) (first : Char) (cursor : Cursor) :
    Scan (Round (List Char) (List Char)) :=
  if isMeta first then refuse (.strayMetaInClass first) cursor
  else
    let on := cursor.advance.advance
    match on.current? with
    | none => refuse .badRangeEnd on
    | some second =>
        if isMeta second then refuse .badRangeEnd on
        else
          match expandRange limits.maxRangeSpan first second with
          | .error tooLarge => refuse (.rangeTooLarge first second tooLarge.span) on
          | .ok range => .ok (.again (members ++ range), on)

/-- Takes the next element of a character set. -/
def memberRound (limits : Limits) (members : List Char) (cursor : Cursor) :
    Scan (Round (List Char) (List Char)) :=
  let on := cursor.advance
  match on.current? with
  | none => refuse .unterminatedClass on
  | some ']' => .ok (.done members, on)
  | some '\\' =>
      match on.advance.current? with
      | none => refuse .unterminatedClass on.advance
      | some escaped => .ok (.again (members ++ escapedMembers escaped), on.advance)
  | some character =>
      if on.next? = some '-' then rangeRound limits members character on
      else if isMeta character then refuse (.strayMetaInClass character) on
      else .ok (.again (members ++ [character]), on)

/-- Scans a character set from its opening bracket on, with its quantifier if it has one. -/
def characterSet (limits : Limits) (cursor : Cursor) : Scan Node :=
  (rounds (memberRound limits) [] cursor).bind fun (members, after) =>
    if members.isEmpty then refuse .emptyClass after
    else if after.next? = some '\x7b' then
      (quantifier limits after.advance).map fun (repetition, last) =>
        (.characterSet members repetition, last)
    else .ok (.characterSet members .once, after)

/-! ## References -/

/-- Takes the next character of a name. -/
def referenceRound (name : List Char) (cursor : Cursor) :
    Scan (Round (List Char) (List Char)) :=
  let on := cursor.advance
  match on.current? with
  | none => refuse .unterminatedReference on
  | some '\x7d' => .ok (.done name, on)
  | some character => .ok (.again (name ++ [character]), on)

/-- Scans a reference from its dollar sign on; a brace follows. -/
def reference (cursor : Cursor) : Scan Node :=
  (rounds referenceRound [] cursor.advance).bind fun (name, after) =>
    if isIdentifier name then .ok (.reference name, after)
    else refuse (.badIdentifier name) after

/-! ## Sequences -/

/-- Puts an item behind a chain. -/
def pushItem (chain : Chain) (item : Scan Node) : Scan (Round Chain (Chain × Bool)) :=
  item.map fun (node, after) => (.again (chain.push node), after)

/-- Puts the operator under the cursor behind a chain. -/
def joinOperator (chain : Chain) (operator : Operator) (cursor : Cursor) :
    Scan (Round Chain (Chain × Bool)) :=
  match chain.join operator with
  | .error fault => refuse fault cursor
  | .ok later => .ok (.again later, cursor)

/--
Takes the next item or operator of a sequence that is inside so many groups, given how groups are
scanned.  The sequence is done at the end of the text or at a parenthesis that closes it.
-/
def sequenceRound (limits : Limits) (depth : Nat) (group : Cursor → Scan Node) (chain : Chain)
    (cursor : Cursor) : Scan (Round Chain (Chain × Bool)) :=
  let on := cursor.advance
  match on.current? with
  | none => .ok (.done (chain, false), on)
  | some '$' =>
      if on.next? = some '\x7b' then pushItem chain (reference on)
      else refuse (.strayMeta '$') on
  | some '[' => pushItem chain (characterSet limits on)
  | some '(' => pushItem chain (group on)
  | some ')' => if depth = 0 then refuse .extraClosing on else .ok (.done (chain, true), on)
  | some '|' => joinOperator chain .alternate on
  | some '&' => joinOperator chain .permute on
  | some character =>
      if isMeta character then refuse (.strayMeta character) on
      else pushItem chain (literal on)

/-- The sequence of a chain; the cursor stands on its closing parenthesis or past the end. -/
def endSequence (depth : Nat) (chain : Chain) (isClosed : Bool) (cursor : Cursor) : Scan Node :=
  match chain.finish with
  | .error fault => refuse fault cursor
  | .ok nodes =>
      if 0 < depth ∧ isClosed = false then refuse .missingClosing cursor
      else .ok (.sequence nodes, cursor)

/-- Scans a sequence inside so many groups, from its opening parenthesis or from the start. -/
def sequence (limits : Limits) (depth : Nat) (cursor : Cursor) : Scan Node :=
  if limits.maxDepth < depth then refuse (.nestedTooDeep limits.maxDepth) cursor
  else
    let group := fun inner => sequence limits (depth + 1) inner
    (rounds (sequenceRound limits depth group) .empty cursor).bind fun ((chain, isClosed), after) =>
      endSequence depth chain isClosed after
termination_by limits.maxDepth + 1 - depth

end Scan

/-- Scans a whole pattern. -/
def scan (limits : Limits) (pattern : List Char) : Scan Node :=
  Scan.sequence limits 0 (.ofText pattern)

end TextTemplate
