import Mathlib.Data.List.Induction
import Mathlib.Data.List.Nodup
import Mathlib.Logic.Function.Iterate
import TextTemplate.Batch

/-!
# Batches and their streams

A stream is what its step yields again and again from a state.  A plain batch is the front of
the stream, and a distinct batch holds the first occurrences in a front of it: the shortest
front with enough different items, or the longest one that the attempts allow.
-/

namespace TextTemplate

namespace Batch

variable {σ α : Type} (next : σ → α × σ)

/-! ## Fronts of a stream -/

/-- The state of a stream behind so many items. -/
def stateBehind (count : Nat) (state : σ) : σ := (fun state => (next state).2)^[count] state

/-- The item of a stream with an index. -/
def item (index : Nat) (state : σ) : α := (next (stateBehind next index state)).1

/-- The first items of a stream. -/
def firstItems (count : Nat) (state : σ) : List α :=
  (List.range count).map fun index => item next index state

theorem stateBehind_succ (count : Nat) (state : σ) :
    stateBehind next (count + 1) state = (next (stateBehind next count state)).2 :=
  Function.iterate_succ_apply' _ count state

theorem firstItems_succ (count : Nat) (state : σ) :
    firstItems next (count + 1) state = firstItems next count state ++ [item next count state] := by
  simp [firstItems, List.range_succ]

/-- The reports on the first accepted items, one after the other. -/
def reports (requested accepted : Nat) : List Progress :=
  (List.range accepted).map fun index => ⟨index + 1, requested⟩

theorem reports_succ (requested accepted : Nat) :
    reports requested (accepted + 1) =
      reports requested accepted ++ [⟨accepted + 1, requested⟩] := by
  simp [reports, List.range_succ]

/-! ## Plain batches -/

/-- A plain batch behind so many items. -/
def plainBehind (requested count : Nat) (state : σ) : Batch σ α :=
  ⟨(firstItems next count state).reverse, (reports requested count).reverse, count,
    stateBehind next count state⟩

theorem takeMore_plainBehind {requested missing count : Nat} (total : count + missing = requested)
    (state : σ) :
    takeMore next requested missing (plainBehind next requested count state) =
      plainBehind next requested requested state := by
  induction missing generalizing count with
  | zero =>
      obtain rfl : count = requested := total
      rfl
  | succ missing ih =>
      have later : count + 1 + missing = requested := by omega
      rw [← ih later]
      have accepted : requested - missing = count + 1 := by omega
      simp only [takeMore, accept, plainBehind, firstItems_succ, reports_succ, stateBehind_succ,
        List.reverse_append, List.reverse_singleton, List.singleton_append, accepted, item]

/-- A plain batch is the front of its stream. -/
theorem take_eq (requested : Nat) (state : σ) :
    take next requested state =
      ⟨firstItems next requested state, reports requested requested, requested,
        stateBehind next requested state⟩ := by
  have all := takeMore_plainBehind next (Nat.zero_add requested) state
  have begun : plainBehind next requested 0 state = start state := rfl
  rw [begun] at all
  simp [take, all, finish, plainBehind]

/-! ## First occurrences -/

section Distinct

variable [BEq α] [LawfulBEq α]

theorem eraseDups_concat (items : List α) (item : α) :
    (items ++ [item]).eraseDups =
      if item ∈ items then items.eraseDups else items.eraseDups ++ [item] := by
  rw [List.eraseDups_append, List.removeAll]
  by_cases seen : item ∈ items
  · simp [seen]
  · simp [seen, List.eraseDups_cons]

theorem nodup_eraseDups (items : List α) : items.eraseDups.Nodup := by
  induction items using List.reverseRecOn with
  | nil => simp
  | append_singleton items item ih =>
      rw [eraseDups_concat]
      split
      · exact ih
      · next unseen =>
          rw [← List.mem_eraseDups] at unseen
          rw [← List.concat_eq_append]
          exact (List.nodup_concat _ _).mpr ⟨unseen, ih⟩

/-- How many different items there are among the first ones of a stream. -/
def distinctCount (count : Nat) (state : σ) : Nat :=
  (firstItems next count state).eraseDups.length

theorem distinctCount_succ (count : Nat) (state : σ) :
    distinctCount next (count + 1) state =
      if item next count state ∈ firstItems next count state then distinctCount next count state
      else distinctCount next count state + 1 := by
  unfold distinctCount
  rw [firstItems_succ, eraseDups_concat]
  split <;> simp

/-! ## Distinct batches -/

/-- A distinct batch behind so many attempts. -/
def distinctBehind (requested attempts : Nat) (state : σ) : Batch σ α :=
  ⟨(firstItems next attempts state).eraseDups.reverse,
    (reports requested (distinctCount next attempts state)).reverse, attempts,
    stateBehind next attempts state⟩

/-- One more attempt at an item that was seen before. -/
theorem reject_distinctBehind {requested attempts : Nat} {state : σ}
    (seen : item next attempts state ∈ firstItems next attempts state) :
    (distinctBehind next requested attempts state).reject
        (next (stateBehind next attempts state)).2 =
      distinctBehind next requested (attempts + 1) state := by
  simp only [reject, distinctBehind, firstItems_succ, eraseDups_concat, distinctCount_succ,
    stateBehind_succ, if_pos seen]

/-- One more attempt at a new item. -/
theorem accept_distinctBehind {requested missing attempts : Nat} {state : σ}
    (unseen : item next attempts state ∉ firstItems next attempts state)
    (total : distinctCount next attempts state + (missing + 1) = requested) :
    (distinctBehind next requested attempts state).accept requested missing
        (item next attempts state) (next (stateBehind next attempts state)).2 =
      distinctBehind next requested (attempts + 1) state := by
  have accepted : requested - missing = distinctCount next attempts state + 1 := by omega
  simp only [accept, distinctBehind, firstItems_succ, eraseDups_concat, distinctCount_succ,
    reports_succ, stateBehind_succ, if_neg unseen, accepted, List.reverse_append,
    List.reverse_singleton, List.singleton_append]

/--
A distinct batch stops after so many attempts: it has the items that were asked for, or it has
fewer and no attempt is left.
-/
structure StopsAfter (requested maxAttempts : Nat) (state : σ) (attempts : Nat) : Prop where
  unfinished : ∀ earlier < attempts, distinctCount next earlier state < requested
  complete_or_spent : distinctCount next attempts state = requested ∧ attempts ≤ maxAttempts ∨
    distinctCount next attempts state < requested ∧ attempts = maxAttempts

variable [Hashable α]

/-- A set holds exactly the first items of a stream. -/
def HoldsFirst (count : Nat) (state : σ) (seen : Std.HashSet α) : Prop :=
  ∀ item, seen.contains item = true ↔ item ∈ firstItems next count state

variable {next} {count : Nat} {state : σ} {seen : Std.HashSet α}

omit [LawfulBEq α] in
theorem holdsFirst_empty : HoldsFirst next 0 state ∅ := by
  intro item
  simp [firstItems]

omit [LawfulBEq α] in
/-- An item that was seen before need not be inserted again. -/
theorem HoldsFirst.skip (holds : HoldsFirst next count state seen)
    (known : item next count state ∈ firstItems next count state) :
    HoldsFirst next (count + 1) state seen := by
  intro other
  rw [holds, firstItems_succ, List.mem_append, List.mem_singleton]
  constructor
  · exact .inl
  · rintro (earlier | rfl)
    · exact earlier
    · exact known

variable [LawfulHashable α]

theorem HoldsFirst.insert (holds : HoldsFirst next count state seen) :
    HoldsFirst next (count + 1) state (seen.insert (item next count state)) := by
  intro other
  rw [Std.HashSet.contains_insert, Bool.or_eq_true, beq_iff_eq, holds, firstItems_succ,
    List.mem_append, List.mem_singleton, or_comm, eq_comm]

/-- From any attempt on, a distinct batch goes on to where it stops. -/
theorem HoldsFirst.exists_takeDistinct_eq {requested attemptsLeft missing : Nat}
    (holds : HoldsFirst next count state seen)
    (unfinished : ∀ earlier < count, distinctCount next earlier state < requested)
    (total : distinctCount next count state + missing = requested) :
    ∃ last, StopsAfter next requested (count + attemptsLeft) state last ∧
      takeDistinct next requested attemptsLeft missing seen
          (distinctBehind next requested count state) =
        distinctBehind next requested last state := by
  induction attemptsLeft generalizing count missing seen with
  | zero =>
      refine ⟨count, ⟨unfinished, ?_⟩, ?_⟩
      · omega
      · cases missing <;> rfl
  | succ attemptsLeft ih =>
      cases missing with
      | zero => exact ⟨count, ⟨unfinished, .inl ⟨total, by omega⟩⟩, rfl⟩
      | succ missing =>
          have stillUnfinished : ∀ earlier < count + 1,
              distinctCount next earlier state < requested := by
            intro earlier before
            rcases Nat.lt_succ_iff_lt_or_eq.mp before with before | rfl
            · exact unfinished earlier before
            · omega
          have attempts : count + (attemptsLeft + 1) = count + 1 + attemptsLeft := by omega
          have step : takeDistinct next requested (attemptsLeft + 1) (missing + 1) seen
              (distinctBehind next requested count state) =
              if seen.contains (item next count state) then
                takeDistinct next requested attemptsLeft (missing + 1) seen
                  ((distinctBehind next requested count state).reject
                    (next (stateBehind next count state)).2)
              else
                takeDistinct next requested attemptsLeft missing
                  (seen.insert (item next count state))
                  ((distinctBehind next requested count state).accept requested missing
                    (item next count state) (next (stateBehind next count state)).2) :=
            rfl
          rw [step, attempts]
          by_cases known : item next count state ∈ firstItems next count state
          · rw [if_pos ((holds _).mpr known), reject_distinctBehind next known]
            refine ih (holds.skip known) stillUnfinished ?_
            rw [distinctCount_succ, if_pos known, total]
          · rw [if_neg (mt (holds _).mp known), accept_distinctBehind next known total]
            refine ih holds.insert stillUnfinished ?_
            rw [distinctCount_succ, if_neg known, ← total]
            omega

variable (next)

/-- A distinct batch holds the first occurrences among the items up to its last attempt. -/
theorem exists_distinct_eq (requested maxAttempts : Nat) (state : σ) :
    ∃ attempts, StopsAfter next requested maxAttempts state attempts ∧
      distinct next requested maxAttempts state =
        ⟨(firstItems next attempts state).eraseDups,
          reports requested (distinctCount next attempts state), attempts,
          stateBehind next attempts state⟩ := by
  have begun : distinctBehind next requested 0 state = start state := rfl
  have nothing : HoldsFirst next 0 state ∅ := holdsFirst_empty
  obtain ⟨attempts, stops, run⟩ := @HoldsFirst.exists_takeDistinct_eq _ _ next _ _ _ _ _ _ _
    requested maxAttempts requested nothing
    (fun earlier impossible => absurd impossible (Nat.not_lt_zero earlier))
    (Nat.zero_add requested)
  rw [Nat.zero_add] at stops
  rw [begun] at run
  refine ⟨attempts, stops, ?_⟩
  simp [distinct, run, finish, distinctBehind]

end Distinct

end Batch

end TextTemplate
