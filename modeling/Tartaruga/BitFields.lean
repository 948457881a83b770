import Mathlib.Algebra.Order.Ring.Int

namespace BitFields

/-!
# Fields of a bit vector

Concatenation and extraction in numbers, so that a statement about the fields
of a word becomes linear arithmetic.
-/

/-- A concatenation in numbers. -/
theorem toNat_append_eq
    {high low : Nat}
    (upper : BitVec high)
    (lower : BitVec low) :
    (upper ++ lower).toNat = upper.toNat * 2 ^ low + lower.toNat := by
  rw [BitVec.toNat_append, ← Nat.shiftLeft_add_eq_or_of_lt lower.isLt,
    Nat.shiftLeft_eq]

/-- A field in numbers. -/
theorem toNat_extractLsb'_eq
    {width : Nat}
    (word : BitVec width)
    (start length : Nat) :
    (word.extractLsb' start length).toNat =
      word.toNat / 2 ^ start % 2 ^ length := by
  rw [BitVec.extractLsb'_toNat, Nat.shiftRight_eq_div_pow]

/-- One bit in numbers. -/
theorem getLsbD_eq
    {width : Nat}
    (word : BitVec width)
    (bit : Nat) :
    word.getLsbD bit = decide (word.toNat / 2 ^ bit % 2 = 1) := by
  rw [BitVec.getLsbD, Nat.testBit_eq_decide_div_mod_eq]

/-- A bit of the upper part. -/
theorem getLsbD_append_of_le
    {high low bit : Nat}
    {upper : BitVec high}
    {lower : BitVec low}
    (isUpper : low ≤ bit) :
    (upper ++ lower).getLsbD bit = upper.getLsbD (bit - low) := by
  rw [BitVec.getLsbD_append, if_neg (Nat.not_lt.mpr isUpper)]

/-- A bit of the lower part. -/
theorem getLsbD_append_of_lt
    {high low bit : Nat}
    {upper : BitVec high}
    {lower : BitVec low}
    (isLower : bit < low) :
    (upper ++ lower).getLsbD bit = lower.getLsbD bit := by
  rw [BitVec.getLsbD_append, if_pos isLower]

end BitFields
