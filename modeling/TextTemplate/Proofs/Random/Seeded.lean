import Mathlib.Algebra.Order.Floor.Div
import TextTemplate.Proofs.Random.Providers
import TextTemplate.Random.Seeded

/-!
# Seeded draws

A number below a bound is the quotient of a product, which the remainder may still refuse.  Each
number is drawn for an interval of words, all of these intervals have the same length, and at least
every second word lies in one of them.  The seeded provider answers every question within its
bounds, so what holds of all providers that do so holds of it.
-/

namespace TextTemplate

/-- The words of a product are its quotient and its remainder. -/
theorem wideProduct_eq_div_mod (first second : UInt64) :
    (wideProduct first second).1.toNat = first.toNat * second.toNat / wordSize ∧
      (wideProduct first second).2.toNat = first.toNat * second.toNat % wordSize := by
  rw [← wideProduct_toNat]
  generalize (wideProduct first second).1.toNat = upper
  have fits : (wideProduct first second).2.toNat < wordSize := UInt64.toNat_lt _
  generalize (wideProduct first second).2.toNat = lower at *
  rw [Nat.mul_comm, Nat.mul_add_div (by decide), Nat.div_eq_of_lt fits, Nat.mul_add_mod,
    Nat.mod_eq_of_lt fits]
  exact ⟨rfl, rfl⟩

namespace Seeded

/-! ## Shares -/

/--
A draw makes numbers below a bound from words below a size.  Each number is drawn for as many words
as any other, and half of the words at least draw a number.
-/
structure DrawsEvenly (size bound share : Nat) (word : ChaChaStream → Nat)
    (draw : ChaChaStream → Option Nat × ChaChaStream) : Prop where
  below : ∀ stream number, (draw stream).1 = some number → number < bound
  interval : ∀ number < bound, ∃ first, first + share ≤ size ∧
    ∀ stream, (draw stream).1 = some number ↔ first ≤ word stream ∧ word stream < first + share
  half : size ≤ 2 * (bound * share)

/-- The least word whose product with a bound reaches a multiple of the size. -/
def leastWord (size bound multiple : Nat) : Nat := (multiple * size) ⌈/⌉ bound

section

variable {size bound share number word : Nat}

theorem leastWord_add_le_iff (positive : 0 < bound) :
    leastWord size bound number + share ≤ word ↔
      number * size + bound * share ≤ bound * word := by
  have moved : number * size + bound * share + bound - 1 =
      number * size + bound - 1 + bound * share := by omega
  have shifted : leastWord size bound number + share =
      (number * size + bound * share) ⌈/⌉ bound := by
    rw [leastWord, Nat.ceilDiv_eq_add_pred_div, Nat.ceilDiv_eq_add_pred_div, moved,
      Nat.add_mul_div_left _ _ positive]
  rw [shifted, ceilDiv_le_iff_le_mul positive]

/-- A quotient with a remainder in the zone that the bound divides, in terms of words. -/
theorem div_mod_iff (positive : 0 < bound) (fits : bound * share ≤ size) :
    word * bound / size = number ∧ word * bound % size < bound * share ↔
      leastWord size bound number ≤ word ∧ word < leastWord size bound number + share := by
  have parts := Nat.div_add_mod (word * bound) size
  have least : leastWord size bound number + 0 ≤ word ↔
      number * size + bound * 0 ≤ bound * word := leastWord_add_le_iff positive
  rw [Nat.add_zero, Nat.mul_zero, Nat.add_zero] at least
  have behind : word < leastWord size bound number + share ↔
      bound * word < number * size + bound * share := by
    rw [← Nat.not_le, leastWord_add_le_iff positive, Nat.not_le]
  rw [least, behind, Nat.mul_comm bound word]
  constructor
  · rintro ⟨rfl, inZone⟩
    rw [Nat.mul_comm] at parts
    omega
  · rintro ⟨reaches, misses⟩
    have quotient : word * bound / size = number := by
      refine Nat.div_eq_of_lt_le reaches ?_
      rw [Nat.add_one_mul]
      omega
    rw [quotient, Nat.mul_comm] at parts
    exact ⟨quotient, by omega⟩

variable {draw : ChaChaStream → Option Nat × ChaChaStream} {drawn : ChaChaStream → Nat}

/-- Quotients with a remainder in the zone are drawn evenly if the zone is half of the words. -/
theorem drawsEvenly_of_div_mod (positive : 0 < bound) (fits : bound * share ≤ size)
    (half : size ≤ 2 * (bound * share)) (words : ∀ stream, drawn stream < size)
    (draws : ∀ stream number, (draw stream).1 = some number ↔
      drawn stream * bound / size = number ∧ drawn stream * bound % size < bound * share) :
    DrawsEvenly size bound share drawn draw where
  below stream number makes := by
    obtain ⟨rfl, -⟩ := (draws stream number).mp makes
    exact Nat.div_lt_of_lt_mul (Nat.mul_lt_mul_of_pos_right (words stream) positive)
  interval number less := by
    have whole := Nat.mul_le_mul_right size (Nat.succ_le_of_lt less)
    rw [Nat.succ_mul] at whole
    refine ⟨leastWord size bound number, (leastWord_add_le_iff positive).mpr (by omega), ?_⟩
    exact fun stream => (draws stream number).trans (div_mod_iff positive fits)
  half := half

/-- Shifted as far as it fits, a bound fills at least half of the words. -/
theorem zone_bounds {bits : Nat} (positive : bound ≠ 0) (fits : bound < 2 ^ bits) :
    bound * 2 ^ (bits - 1 - bound.log2) < 2 ^ bits ∧
      2 ^ bits ≤ 2 * (bound * 2 ^ (bits - 1 - bound.log2)) := by
  have shorter : bound.log2 < bits := (Nat.log2_lt positive).mpr fits
  have whole : bound.log2 + 1 + (bits - 1 - bound.log2) = bits := by omega
  constructor
  · calc
      bound * 2 ^ (bits - 1 - bound.log2) < 2 ^ (bound.log2 + 1) * 2 ^ (bits - 1 - bound.log2) :=
        Nat.mul_lt_mul_of_pos_right Nat.lt_log2_self (Nat.two_pow_pos _)
      _ = 2 ^ bits := by rw [← Nat.pow_add, whole]
  · calc
      2 ^ bits = 2 * (2 ^ bound.log2 * 2 ^ (bits - 1 - bound.log2)) := by
        rw [← Nat.mul_assoc, ← Nat.pow_add_one', ← Nat.pow_add, whole]
      _ ≤ 2 * (bound * 2 ^ (bits - 1 - bound.log2)) :=
        Nat.mul_le_mul_left 2 (Nat.mul_le_mul_right _ (Nat.log2_self_le positive))

/-- In words of some bits the shift loses nothing. -/
theorem shiftLeft_mod_eq {bits : Nat} (positive : bound ≠ 0) (fits : bound < 2 ^ bits) :
    bound <<< ((bits - 1 - bound.log2) % bits) % 2 ^ bits =
      bound * 2 ^ (bits - 1 - bound.log2) := by
  have shorter : bound.log2 < bits := (Nat.log2_lt positive).mpr fits
  have amount : (bits - 1 - bound.log2) % bits = bits - 1 - bound.log2 :=
    Nat.mod_eq_of_lt (by omega)
  rw [amount, Nat.shiftLeft_eq, Nat.mod_eq_of_lt (zone_bounds positive fits).1]

end

/-! ## Draws of two words -/

/-- The zone of a bound for two words ends one in front of a multiple of it. -/
theorem toNat_zone {bound : UInt64} (positive : bound.toNat ≠ 0) :
    ((bound <<< (63 - bound.log2)) - 1).toNat + 1 =
      bound.toNat * 2 ^ (63 - bound.toNat.log2) := by
  have log : bound.log2.toNat = bound.toNat.log2 := rfl
  have shorter : bound.toNat.log2 < 64 := (Nat.log2_lt positive).mpr bound.toNat_lt
  have atMost : bound.log2 ≤ 63 := by
    rw [UInt64.le_iff_toNat_le, log]
    exact Nat.le_of_lt_succ shorter
  have shifted : (bound <<< (63 - bound.log2)).toNat =
      bound.toNat * 2 ^ (63 - bound.toNat.log2) := by
    rw [UInt64.toNat_shiftLeft, UInt64.toNat_sub_of_le _ _ atMost, log]
    exact shiftLeft_mod_eq positive bound.toNat_lt
  have some : 1 ≤ bound.toNat * 2 ^ (63 - bound.toNat.log2) :=
    Nat.mul_pos (Nat.pos_of_ne_zero positive) (Nat.two_pow_pos _)
  rw [UInt64.toNat_sub_of_le _ _ (UInt64.le_iff_toNat_le.mpr (shifted ▸ some)), shifted]
  exact Nat.sub_add_cancel some

theorem drawBelow_eq_some_iff {bound : UInt64} {stream : ChaChaStream} {number : Nat} :
    (drawBelow bound stream).1 = some number ↔
      stream.nextDoubleWord.1.toNat * bound.toNat / wordSize = number ∧
        stream.nextDoubleWord.1.toNat * bound.toNat % wordSize ≤
          ((bound <<< (63 - bound.log2)) - 1).toNat := by
  obtain ⟨quotient, remainder⟩ := wideProduct_eq_div_mod stream.nextDoubleWord.1 bound
  rw [← quotient, ← remainder, ← UInt64.le_iff_toNat_le, drawBelow, and_comm]
  simp only [Option.ite_none_right_eq_some, Option.some.injEq]

/-- Two words draw all numbers below a bound alike. -/
theorem drawBelow_drawsEvenly {bound : UInt64} (positive : bound.toNat ≠ 0) :
    DrawsEvenly wordSize bound.toNat (2 ^ (63 - bound.toNat.log2))
      (fun stream => stream.nextDoubleWord.1.toNat) (drawBelow bound) := by
  obtain ⟨fits, half⟩ := zone_bounds positive bound.toNat_lt
  refine drawsEvenly_of_div_mod (Nat.pos_of_ne_zero positive) (Nat.le_of_lt fits) half
    (fun stream => UInt64.toNat_lt _) fun stream number => ?_
  rw [drawBelow_eq_some_iff, ← toNat_zone positive, Nat.lt_succ_iff]

/-! ## Draws of one word -/

/-- The zone of a bound for one word. -/
theorem toNat_shortZone {bound : UInt32} (positive : bound.toNat ≠ 0) :
    ((bound <<< (31 - bound.log2)) - 1).toNat + 1 =
      bound.toNat * 2 ^ (31 - bound.toNat.log2) := by
  have log : bound.log2.toNat = bound.toNat.log2 := rfl
  have shorter : bound.toNat.log2 < 32 := (Nat.log2_lt positive).mpr bound.toNat_lt
  have atMost : bound.log2 ≤ 31 := by
    rw [UInt32.le_iff_toNat_le, log]
    exact Nat.le_of_lt_succ shorter
  have shifted : (bound <<< (31 - bound.log2)).toNat =
      bound.toNat * 2 ^ (31 - bound.toNat.log2) := by
    rw [UInt32.toNat_shiftLeft, UInt32.toNat_sub_of_le _ _ atMost, log]
    exact shiftLeft_mod_eq positive bound.toNat_lt
  have some : 1 ≤ bound.toNat * 2 ^ (31 - bound.toNat.log2) :=
    Nat.mul_pos (Nat.pos_of_ne_zero positive) (Nat.two_pow_pos _)
  rw [UInt32.toNat_sub_of_le _ _ (UInt32.le_iff_toNat_le.mpr (shifted ▸ some)), shifted]
  exact Nat.sub_add_cancel some

theorem drawShortBelow_eq_some_iff {bound : UInt32} {stream : ChaChaStream} {number : Nat} :
    (drawShortBelow bound stream).1 = some number ↔
      stream.nextWord.1.toNat * bound.toNat / halfWordSize = number ∧
        stream.nextWord.1.toNat * bound.toNat % halfWordSize ≤
          ((bound <<< (31 - bound.log2)) - 1).toNat := by
  have fits : stream.nextWord.1.toNat * bound.toNat < 2 ^ 64 := calc
    stream.nextWord.1.toNat * bound.toNat < 2 ^ 32 * 2 ^ 32 :=
      Nat.mul_lt_mul_of_lt_of_le stream.nextWord.1.toNat_lt (Nat.le_of_lt bound.toNat_lt)
        (by decide)
    _ = 2 ^ 64 := (Nat.pow_add 2 32 32).symm
  have product : (stream.nextWord.1.toUInt64 * bound.toUInt64).toNat =
      stream.nextWord.1.toNat * bound.toNat := by
    rw [UInt64.toNat_mul, UInt32.toNat_toUInt64, UInt32.toNat_toUInt64, Nat.mod_eq_of_lt fits]
  have quotient : ((stream.nextWord.1.toUInt64 * bound.toUInt64) >>> 32).toNat =
      stream.nextWord.1.toNat * bound.toNat / halfWordSize := by
    rw [UInt64.toNat_shiftRight, product, Nat.shiftRight_eq_div_pow]
    rfl
  have remainder : (stream.nextWord.1.toUInt64 * bound.toUInt64).toUInt32.toNat =
      stream.nextWord.1.toNat * bound.toNat % halfWordSize := by
    rw [UInt64.toNat_toUInt32, product]
    rfl
  rw [← quotient, ← remainder, ← UInt32.le_iff_toNat_le, drawShortBelow, and_comm]
  simp only [Option.ite_none_right_eq_some, Option.some.injEq]

/-- One word draws all numbers below a bound alike. -/
theorem drawShortBelow_drawsEvenly {bound : UInt32} (positive : bound.toNat ≠ 0) :
    DrawsEvenly halfWordSize bound.toNat (2 ^ (31 - bound.toNat.log2))
      (fun stream => stream.nextWord.1.toNat) (drawShortBelow bound) := by
  obtain ⟨fits, half⟩ := zone_bounds positive bound.toNat_lt
  refine drawsEvenly_of_div_mod (Nat.pos_of_ne_zero positive) (Nat.le_of_lt fits) half
    (fun stream => UInt32.toNat_lt _) fun stream number => ?_
  rw [drawShortBelow_eq_some_iff, ← toNat_shortZone positive, Nat.lt_succ_iff]

/-! ## Answers -/

theorem untilKept_lt {draw : ChaChaStream → Option Nat × ChaChaStream} {limit : Nat}
    (positive : 0 < limit)
    (below : ∀ stream number, (draw stream).1 = some number → number < limit) (attempts : Nat)
    (stream : ChaChaStream) : (untilKept draw attempts stream).1 < limit := by
  induction attempts generalizing stream with
  | zero => exact positive
  | succ attempts ih =>
      rw [untilKept]
      split
      · next number later drawn => exact below stream number (congrArg Prod.fst drawn)
      · next later drawn => exact ih later

/-- A bound that is no word loses its upper bits, which makes the numbers no larger. -/
theorem below_staysBelow : Pick.StaysBelow below := by
  intro bound stream positive
  refine untilKept_lt positive (fun stream number makes => ?_) maxRejections stream
  obtain ⟨rfl, -⟩ := drawBelow_eq_some_iff.mp makes
  have word : bound.toUInt64.toNat ≤ bound := Nat.mod_le bound _
  exact Nat.div_lt_of_lt_mul (Nat.mul_lt_mul_of_lt_of_le (UInt64.toNat_lt _) word positive)

/-- An integer is drawn between its bounds, also when it is a word as it comes. -/
theorem integer_between {low high : Nat} (ordered : low ≤ high) (word : high < wordSize)
    (stream : ChaChaStream) :
    low ≤ (integer low high stream).1 ∧ (integer low high stream).1 ≤ high := by
  unfold integer
  dsimp only
  split
  · have offset := below_staysBelow (high - low + 1) stream (Nat.succ_pos _)
    dsimp only
    omega
  · have drawn : stream.nextDoubleWord.1.toNat < wordSize := UInt64.toNat_lt _
    dsimp only
    omega

/-- The seeded provider, whatever its name, answers every question within its bounds. -/
theorem answersWithin_providerNamed (name : String) : (providerNamed name).AnswersWithin where
  index := below_staysBelow
  integer _ _ stream ordered word := integer_between ordered word stream
  rearrange := shuffleWith_perm shortBelow

end Seeded

end TextTemplate
