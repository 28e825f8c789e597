import TextTemplate.Pattern.Parse
import TextTemplate.Proofs.Pattern.Derivations
import TextTemplate.Proofs.Pattern.Writings

/-!
# Accepted patterns

A pattern is accepted exactly when it describes a tree, and the tree that is read is the one
that it describes.  Reading goes token by token, so the two levels of the grammar meet in the
list of tokens that a run takes off the pattern.
-/

namespace TextTemplate

theorem readTree_sound {limits : Limits} {nesting : Nesting} {text : List Char} {tree : Node}
    (read : readTree limits nesting text = .ok tree) :
    ∃ tokens, WritesTokens limits text tokens ∧
      (nesting.takeAll limits tokens).bind Nesting.finish = .ok tree := by
  fun_induction readTree limits nesting text with
  | case1 nesting =>
      refine ⟨[], .nil, ?_⟩
      cases finished : nesting.finish with
      | error fault =>
          rw [finished] at read
          cases read
      | ok node =>
          rw [finished] at read
          cases read
          exact finished
  | case2 => cases read
  | case3 => cases read
  | case4 nesting first rest token after reads deeper takes _ ih =>
      obtain ⟨tokens, writes, run⟩ := ih read
      refine ⟨token :: tokens, readToken_sound reads writes, ?_⟩
      rw [Nesting.takeAll_cons, takes]
      exact run

theorem readTree_complete {limits : Limits} {nesting : Nesting} {text : List Char}
    {tokens : List Token} {tree : Node} (writes : WritesTokens limits text tokens)
    (run : (nesting.takeAll limits tokens).bind Nesting.finish = .ok tree) :
    readTree limits nesting text = .ok tree := by
  induction tokens generalizing nesting text with
  | nil =>
      cases writes
      have finished : nesting.finish = .ok tree := run
      rw [readTree, finished]
      rfl
  | cons token tokens ih =>
      obtain ⟨first, rest, after, rfl, reads, later⟩ := readToken_complete writes
      rw [Nesting.takeAll_cons] at run
      cases takes : nesting.take limits token with
      | error fault =>
          rw [takes] at run
          cases run
      | ok deeper =>
          rw [takes] at run
          have read := ih later run
          rw [readTree_cons, reads]
          simp only [takes]
          exact read

/-- The tree of a pattern comes from the tokens that the pattern writes. -/
theorem parse_eq_ok_iff_tokens {limits : Limits} {pattern : List Char} {tree : Node} :
    parse limits pattern = .ok tree ↔
      ∃ tokens, WritesTokens limits pattern tokens ∧
        (Nesting.root.takeAll limits tokens).bind Nesting.finish = .ok tree := by
  unfold parse
  constructor
  · intro read
    cases same : readTree limits .root pattern with
    | error failure =>
        rw [same] at read
        cases read
    | ok node =>
        rw [same] at read
        cases read
        exact readTree_sound same
  · rintro ⟨tokens, writes, run⟩
    rw [readTree_complete writes run]
    rfl

/-- A pattern is read to a tree exactly when it describes that tree. -/
theorem parse_eq_ok_iff_describes {limits : Limits} {pattern : List Char} {tree : Node} :
    parse limits pattern = .ok tree ↔ Describes limits pattern tree := by
  rw [parse_eq_ok_iff_tokens]
  constructor
  · rintro ⟨tokens, writes, run⟩
    obtain ⟨nodes, derives, same⟩ := sequenceTokens_iff_takeAll.mpr run
    exact ⟨tokens, nodes, writes, derives, same⟩
  · rintro ⟨tokens, nodes, writes, derives, same⟩
    exact ⟨tokens, writes, sequenceTokens_iff_takeAll.mp ⟨nodes, derives, same⟩⟩

/--
The grammar decides which patterns are read, and to which trees: a pattern that describes a
tree is read to that tree, and every other pattern is a syntax error.
-/
theorem parse_realises_grammar (limits : Limits) (pattern : List Char) :
    (∀ tree, parse limits pattern = .ok tree ↔ Describes limits pattern tree) ∧
      ((∃ error : SyntaxError, parse limits pattern = .error error) ↔
        ¬ ∃ tree, Describes limits pattern tree) := by
  refine ⟨fun tree => parse_eq_ok_iff_describes, ?_⟩
  constructor
  · rintro ⟨error, failed⟩ ⟨tree, describes⟩
    rw [parse_eq_ok_iff_describes.mpr describes] at failed
    cases failed
  · intro refused
    cases read : parse limits pattern with
    | error error => exact ⟨error, rfl⟩
    | ok tree => exact absurd ⟨tree, parse_eq_ok_iff_describes.mp read⟩ refused

end TextTemplate
