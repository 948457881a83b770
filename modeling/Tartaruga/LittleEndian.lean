import Mathlib.Algebra.Order.Ring.Int
import Mathlib.Tactic.Common

namespace LittleEndian

/-!
# Little-endian numbers

Numbers that are spread over consecutive bytes, least significant byte first.
A byte sequence is a function from positions, so that the same number can be
read from a file, from a buffer that holds a part of it, or from a memory.
-/

/-- A byte. -/
abbrev Byte := BitVec 8

/-- The number in `width` bytes from a position on. -/
def number (bytes : Nat → Byte) (position : Nat) : Nat → Nat
  | 0 => 0
  | width + 1 =>
      (bytes position).toNat + 256 * number bytes (position + 1) width

/-- The word in four bytes from a position on. -/
def word (bytes : Nat → Byte) (position : Nat) : BitVec 32 :=
  BitVec.ofNat 32 (number bytes position 4)

/-- A byte of a word. -/
def byteOf (word : BitVec 32) (place : Nat) : Byte :=
  word.extractLsb' (8 * place) 8

variable {bytes other : Nat → Byte} {position otherPosition width : Nat}

/-- Equal bytes make equal numbers. -/
theorem number_congr
    (same :
      ∀ place, place < width →
        bytes (position + place) = other (otherPosition + place)) :
    number bytes position width = number other otherPosition width := by
  induction width generalizing position otherPosition with
  | zero => rfl
  | succ width inductionHypothesis =>
      have first := same 0 (Nat.zero_lt_succ width)
      have rest :
          number bytes (position + 1) width =
            number other (otherPosition + 1) width := by
        apply inductionHypothesis
        intro place inside
        have next := same (place + 1) (Nat.succ_lt_succ inside)
        rw [Nat.add_right_comm, Nat.add_right_comm otherPosition]
        exact next
      rw [Nat.add_zero, Nat.add_zero] at first
      rw [number, number, first, rest]

/-- The bytes of a word are those that it was read from. -/
theorem byteOf_word
    (bytes : Nat → Byte)
    (position : Nat)
    {place : Nat}
    (inside : place < 4) :
    byteOf (word bytes position) place = bytes (position + place) := by
  apply BitVec.eq_of_toNat_eq
  have zeroth := (bytes position).isLt
  have first := (bytes (position + 1)).isLt
  have second := (bytes (position + 1 + 1)).isLt
  have third := (bytes (position + 1 + 1 + 1)).isLt
  simp only [byteOf, word, number, BitVec.extractLsb'_toNat,
    BitVec.toNat_ofNat, Nat.shiftRight_eq_div_pow]
  match place with
  | 0 =>
      change _ = (bytes position).toNat
      omega
  | 1 =>
      change _ = (bytes (position + 1)).toNat
      omega
  | 2 =>
      change _ = (bytes (position + 1 + 1)).toNat
      omega
  | 3 =>
      change _ = (bytes (position + 1 + 1 + 1)).toNat
      omega

end LittleEndian
