import TextTemplate.Text.WordSize

/-!
# Products of words

The product of two words of 64 bits fills two words.  Both are made from the products of the
halves of the factors, none of which overflows.
-/

namespace TextTemplate

namespace WideProduct

/-- The lower 32 bits. -/
@[inline]
def lowerHalf (word : UInt64) : UInt64 := word &&& 0xffffffff

/-- The upper 32 bits, moved down. -/
@[inline]
def upperHalf (word : UInt64) : UInt64 := word >>> 32

theorem toNat_lowerHalf (word : UInt64) :
    (lowerHalf word).toNat = word.toNat % halfWordSize := by
  change word.toNat &&& (2 ^ 32 - 1) = _
  exact Nat.and_two_pow_sub_one_eq_mod _ 32

theorem toNat_upperHalf (word : UInt64) :
    (upperHalf word).toNat = word.toNat / halfWordSize := by
  rw [upperHalf, UInt64.toNat_shiftRight, Nat.shiftRight_eq_div_pow]
  rfl

/-- A number of 64 bits has two halves. -/
theorem exists_halves {number : Nat} (fits : number < wordSize) :
    ∃ upper lower, upper < halfWordSize ∧ lower < halfWordSize ∧
      number = upper * halfWordSize + lower := by
  simp only [halfWordSize, wordSize, Nat.reduceShiftLeft] at fits ⊢
  exact ⟨number / 4294967296, number % 4294967296, by omega, by omega, by omega⟩

/-- The lower one of two halves. -/
theorem mod_halfWordSize (upper : Nat) {lower : Nat} (fits : lower < halfWordSize) :
    (upper * halfWordSize + lower) % halfWordSize = lower := by
  rw [Nat.mul_add_mod_self_right, Nat.mod_eq_of_lt fits]

/-- The upper one of two halves. -/
theorem div_halfWordSize (upper : Nat) {lower : Nat} (fits : lower < halfWordSize) :
    (upper * halfWordSize + lower) / halfWordSize = upper := by
  rw [Nat.mul_comm, Nat.mul_add_div (by decide), Nat.div_eq_of_lt fits, Nat.add_zero]

/-- The product of two halves leaves room for two more of them in a word. -/
theorem mul_le {first second : Nat} (firstFits : first < halfWordSize)
    (secondFits : second < halfWordSize) : first * second ≤ 18446744065119617025 :=
  Nat.mul_le_mul (Nat.le_of_lt_succ firstFits : first ≤ 4294967295)
    (Nat.le_of_lt_succ secondFits : second ≤ 4294967295)

/-- The product of two numbers from the products of their halves. -/
theorem mul_halves (base upper lower upper' lower' : Nat) :
    (upper * base + lower) * (upper' * base + lower') =
      upper * upper' * (base * base) + (upper * lower' + lower * upper') * base
        + lower * lower' := by
  simp only [Nat.add_mul, Nat.mul_add]
  ac_rfl

end WideProduct

/-- The upper and the lower word of a product. -/
def wideProduct (first second : UInt64) : UInt64 × UInt64 :=
  let upper := WideProduct.upperHalf
  let lower := WideProduct.lowerHalf
  let least := lower first * lower second
  let inner := upper first * lower second + upper least
  let outer := lower first * upper second + lower inner
  (upper first * upper second + upper inner + upper outer, first * second)

/-- Both words together are the product. -/
theorem wideProduct_toNat (first second : UInt64) :
    (wideProduct first second).1.toNat * wordSize + (wideProduct first second).2.toNat =
      first.toNat * second.toNat := by
  simp only [wideProduct, UInt64.toNat_add, UInt64.toNat_mul, WideProduct.toNat_lowerHalf,
    WideProduct.toNat_upperHalf]
  have firstFits := first.toNat_lt
  have secondFits := second.toNat_lt
  generalize first.toNat = first at *
  generalize second.toNat = second at *
  obtain ⟨upper, lower, upperFits, lowerFits, rfl⟩ := WideProduct.exists_halves firstFits
  obtain ⟨upper', lower', upperFits', lowerFits', rfl⟩ := WideProduct.exists_halves secondFits
  rw [WideProduct.mod_halfWordSize upper lowerFits, WideProduct.div_halfWordSize upper lowerFits,
    WideProduct.mod_halfWordSize upper' lowerFits',
    WideProduct.div_halfWordSize upper' lowerFits', WideProduct.mul_halves]
  have uppers := WideProduct.mul_le upperFits upperFits'
  have crossed := WideProduct.mul_le upperFits lowerFits'
  have crossed' := WideProduct.mul_le lowerFits upperFits'
  have lowers := WideProduct.mul_le lowerFits lowerFits'
  generalize upper * upper' = uppers at *
  generalize upper * lower' = crossed at *
  generalize lower * upper' = crossed' at *
  generalize lower * lower' = lowers at *
  simp only [halfWordSize, wordSize, Nat.reduceShiftLeft] at *
  omega

end TextTemplate
