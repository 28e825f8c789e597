/-!
# Shuffling

The last position not yet settled is swapped with one chosen among those up to it, from the
end of the list to its second position.
-/

namespace TextTemplate

namespace Shuffle

variable {σ : Type}

/-- Settles the positions from `last` down to the second one. -/
def settle (pick : Nat → σ → Nat × σ) : Nat → Array Char → σ → Array Char × σ
  | 0, characters, state => (characters, state)
  | last + 1, characters, state =>
      let (chosen, later) := pick (last + 2) state
      settle pick last (characters.swapIfInBounds (last + 1) chosen) later

end Shuffle

/-- Shuffles characters with the help of a way to pick an index below a bound. -/
def shuffleWith {σ : Type} (pick : Nat → σ → Nat × σ) (characters : List Char) (state : σ) :
    List Char × σ :=
  let (settled, later) := Shuffle.settle pick (characters.length - 1) characters.toArray state
  (settled.toList, later)

/-- Shuffling rearranges: no character is lost or added. -/
theorem shuffleWith_perm {σ : Type} (pick : Nat → σ → Nat × σ) (characters : List Char)
    (state : σ) : (shuffleWith pick characters state).1.Perm characters := by
  suffices keeps : ∀ last (array : Array Char) (state : σ),
      (Shuffle.settle pick last array state).1.toList.Perm array.toList from
    keeps (characters.length - 1) characters.toArray state
  intro last
  induction last with
  | zero => intro array state; exact .refl _
  | succ last ih =>
      intro array state
      refine (ih _ _).trans ?_
      unfold Array.swapIfInBounds
      split
      · split
        · exact (Array.perm_iff_toList_perm.mp (Array.swap_perm ..))
        · exact .refl _
      · exact .refl _

end TextTemplate
