import Mathlib.Data.List.Permutation
import TextTemplate.Proofs.Count.Questions
import TextTemplate.Proofs.Render.Names
import TextTemplate.Run

/-!
# Counts that ask nothing

Counting draws a sample only of a permutation that joins literals and sets.  Without sets in such
permutations it asks nothing at all, whether there is a count or not, and every count may be left
out of a run.
-/

namespace TextTemplate

variable {σ : Type}

/-- A recipe that may ask nothing has its value already. -/
theorem Recipe.exists_eq_done {α : Type} {recipe : Recipe α}
    (asks : recipe.AsksOnly fun _ => False) : ∃ value, recipe = .done value := by
  cases recipe with
  | done value => exact ⟨value, rfl⟩
  | index bound next => exact asks.1.elim
  | between low high next => exact asks.1.elim
  | shuffle characters next => exact asks.1.elim
  | resolve name next => exact asks.1.elim

namespace Node

/-- A permutation of literals and sets has no set among its operands. -/
def SamplesLiterals : Node → Prop
  | .permutation operands =>
      (∀ operand ∈ operands, operand.IsFlat) → ∀ operand ∈ operands, ∃ text, operand = .literal text
  | _ => True

/-- The count of a tree whose samples hold literals only is settled before any question. -/
theorem exists_count_eq_done {tree : Node} (literals : tree.Every SamplesLiterals) :
    ∃ counted, tree.count = .done counted := by
  apply Recipe.exists_eq_done
  apply count_asksOnly
  apply literals.imp
  rintro node samples operands rfl flat operand member question asks
  obtain ⟨text, rfl⟩ := samples flat operand member
  cases asks

end Node

/-! ## What a run hands out -/

/-- What a request hands out. -/
inductive Answer where
  | text (text : List Char)
  | batch (outcome : Except UniquenessError (List (List Char))) (progress : List Progress)
  | set (texts : List (List Char))
  | number (counted : Counted)

/-- Whether an answer is that of a count. -/
def Answer.isNumber : Answer → Bool
  | .number _ => true
  | _ => false

namespace Generator

/-- What a request hands out, and the session behind it; nothing when a set is given up. -/
def answer? (generator : Generator σ) (session : Session σ) :
    Request → Option (Answer × Session σ)
  | .render =>
      let (text, later) := generator.render session
      some (.text text, later)
  | .renderBare =>
      let (text, later) := generator.renderBare session
      some (.text text, later)
  | .list requested =>
      let batch := generator.renderList requested session
      some (.batch batch.outcome batch.progress, batch.session)
  | .distinct requested =>
      let batch := generator.renderDistinct requested session
      some (.batch batch.outcome batch.progress, batch.session)
  | .set patience requested =>
      (generator.renderSet? patience requested session).map fun (texts, later) =>
        (.set texts, later)
  | .count =>
      let (counted, later) := generator.count session
      some (.number counted, later)

/-- What some requests hand out, one after the other, and the session behind them. -/
def answers? (generator : Generator σ) :
    List Request → Session σ → Option (List Answer × Session σ)
  | [], session => some ([], session)
  | request :: rest, session =>
      (generator.answer? session request).bind fun (answer, between) =>
        (generator.answers? rest between).map fun (answers, later) => (answer :: answers, later)

variable (generator : Generator σ) {session later : Session σ}

theorem map_answer?_session (session : Session σ) (request : Request) :
    (generator.answer? session request).map Prod.snd = generator.perform? session request := by
  cases request with
  | set patience requested =>
      rw [answer?, perform?, Option.map_map]
      rfl
  | render | renderBare | list | distinct | count => rfl

/-- Keeping the answers does not change the run. -/
theorem map_answers?_session (requests : List Request) (session : Session σ) :
    (generator.answers? requests session).map Prod.snd = generator.run? requests session := by
  induction requests generalizing session with
  | nil => rfl
  | cons request rest ih =>
      rw [run?, List.foldlM_cons, ← map_answer?_session, answers?]
      cases generator.answer? session request with
      | none => rfl
      | some outcome =>
          rw [Option.bind_some, Option.map_map]
          exact ih outcome.2

theorem isNumber_of_answer? {request : Request} {answer : Answer}
    (answered : generator.answer? session request = some (answer, later)) :
    answer.isNumber = true ↔ request = .count := by
  cases request with
  | set patience requested =>
      obtain ⟨outcome, -, same⟩ := Option.map_eq_some_iff.mp answered
      cases same
      simp [Answer.isNumber]
  | render | renderBare | list | distinct | count =>
      cases answered
      simp [Answer.isNumber]

/-- Counts that leave the session alone can be left out of a run. -/
theorem answers?_filter_count (leaves : ∀ session, (generator.count session).2 = session)
    (requests : List Request) (session : Session σ) :
    generator.answers? (requests.filter (· ≠ .count)) session =
      (generator.answers? requests session).map fun (answers, later) =>
        (answers.filter fun answer => !answer.isNumber, later) := by
  induction requests generalizing session with
  | nil => rfl
  | cons request rest ih =>
      by_cases counts : request = .count
      · subst counts
        rw [List.filter_cons_of_neg (by simp), ih, answers?, answer?]
        simp [leaves, Answer.isNumber, Function.comp_def]
      · rw [List.filter_cons_of_pos (by simpa using counts), answers?, answers?]
        cases answered : generator.answer? session request with
        | none => rfl
        | some outcome =>
            obtain ⟨answer, between⟩ := outcome
            have noNumber : answer.isNumber = false := by
              simpa [counts] using generator.isNumber_of_answer? answered
            simp only [Option.bind_some, ih]
            simp [noNumber, Function.comp_def]

end Generator

/--
A tree in which no permutation joins sets to literals is counted without a question, by the same
result for every provider and with the session left as it is.  So the counts among any requests
can be left out: every other request hands out the same, and the run ends in the same session.
-/
theorem count_is_silent (tree : Node) (literals : tree.Every Node.SamplesLiterals) :
    ∃ counted, tree.count = .done counted ∧
      (∀ {σ : Type} (provider : Provider σ) (session : Session σ),
        session.draws provider tree.count = [] ∧
          session.follow provider tree.count = (counted, session)) ∧
      ∀ {σ : Type} (generator : Generator σ), generator.tree = tree →
        ∀ (requests : List Request) (session : Session σ),
          let others := requests.filter (· ≠ .count)
          generator.run? others session = generator.run? requests session ∧
            generator.answers? others session =
              (generator.answers? requests session).map fun (answers, later) =>
                (answers.filter fun answer => !answer.isNumber, later) := by
  obtain ⟨counted, settled⟩ := Node.exists_count_eq_done literals
  refine ⟨counted, settled, ?_, ?_⟩
  · intro σ provider session
    rw [settled]
    exact ⟨rfl, rfl⟩
  · rintro σ generator rfl requests session others
    have leaves (session : Session σ) : (generator.count session).2 = session := by
      rw [Generator.count, settled]
      rfl
    have answers := generator.answers?_filter_count leaves requests session
    refine ⟨?_, answers⟩
    rw [← generator.map_answers?_session, ← generator.map_answers?_session, answers,
      Option.map_map]
    rfl

/-- Two counts among a rendering and a batch, by a provider that gives every index once. -/
theorem count_is_silent_among_renderings :
    let tree := Node.sequence
      [.permutation [.literal ['a', 'b'], .literal ['c']], .characterSet ['x', 'y'] (.between 1 2)]
    let generator : Generator Nat := ⟨"ab&c[xy]\x7b1:2\x7d".toList, tree, {},
      Provider.ofIndex Pick.cycle "cycle"⟩
    let session : Session Nat := { randomness := 1 }
    let requests : List Request := [.count, .render, .count, .list 2]
    tree.Every Node.SamplesLiterals ∧
      session.draws generator.provider tree.count = [] ∧
        (session.follow generator.provider tree.count).1 = .ok 36 ∧
          generator.run? [.render, .list 2] session = generator.run? requests session := by
  intro tree generator session requests
  have literals : tree.Every Node.SamplesLiterals := by
    simp [tree, Node.Every, Node.EveryAmong, Node.SamplesLiterals]
  have number : (session.follow generator.provider tree.count).1 = .ok 36 := by cbv
  obtain ⟨counted, -, silent, sameRun⟩ := count_is_silent tree literals
  exact ⟨literals, (silent generator.provider session).1, number,
    (sameRun generator rfl requests session).1⟩

end TextTemplate
