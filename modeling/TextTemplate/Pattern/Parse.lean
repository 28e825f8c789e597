import TextTemplate.Pattern.Nesting

/-!
# From patterns to trees

A pattern is read token by token.  The tokens build up the nested chains, and the end of the
pattern turns these into a tree.  Reading stops at the first fault.
-/

namespace TextTemplate

/-- Reads the rest of a pattern, given the groups that are open at its front. -/
def readTree (limits : Limits) (nesting : Nesting) (text : List Char) : Except Failure Node :=
  match text with
  | [] => nesting.finish.mapError fun fault => ⟨fault, []⟩
  | first :: rest =>
      match read : readToken limits first rest with
      | .error failure => .error failure
      | .ok (token, after) =>
          match nesting.take limits token with
          | .error fault => .error ⟨fault, first :: rest⟩
          | .ok deeper =>
              have : after.length < rest.length + 1 :=
                Nat.lt_succ_of_le (readToken_leaves limits first rest token after read)
              readTree limits deeper after
termination_by text.length

/-- One token is read and taken, and then the rest. -/
theorem readTree_cons (limits : Limits) (nesting : Nesting) (first : Char) (rest : List Char) :
    readTree limits nesting (first :: rest) =
      match readToken limits first rest with
      | .error failure => .error failure
      | .ok (token, after) =>
          match nesting.take limits token with
          | .error fault => .error ⟨fault, first :: rest⟩
          | .ok deeper => readTree limits deeper after := by
  rw [readTree]
  split
  · next failure reads => simp only [reads]
  · next token after reads =>
      cases taken : nesting.take limits token <;> simp only [reads, taken]

/-- The tree that a pattern describes, or the first fault in it. -/
def parse (limits : Limits) (pattern : List Char) : Except SyntaxError Node :=
  (readTree limits .root pattern).mapError fun failure => failure.locate pattern

end TextTemplate
