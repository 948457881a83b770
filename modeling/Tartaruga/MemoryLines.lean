import Tartaruga.DataCacheSource
import Mathlib.Tactic.Common

namespace Tartaruga

/-!
# Words and lines of the memory

Reading after writing, for word addresses and for the aligned four-word lines
that the data cache moves.
-/

namespace Memory

variable {memory : Memory} {addr other data : Bus32}

/-- The address of a word inside the array. -/
structure IsWord (addr : Bus32) : Prop where
  aligned : addr.toNat % 4 = 0
  inside : addr.toNat < 2 ^ 30

/-- Words inside the array are where their addresses say. -/
theorem IsWord.inRange (isWord : IsWord addr) : inRange addr = true :=
  decide_eq_true isWord.inside

/-- The position of a word, as a number. -/
theorem IsWord.toNat_index (isWord : IsWord addr) :
    (index addr).toNat = addr.toNat / 4 := by
  have inside := isWord.inside
  simp only [index, BitVec.extractLsb'_toNat, Nat.shiftRight_eq_div_pow]
  omega

/-- Different words lie at different positions. -/
theorem IsWord.index_inj
    (isWord : IsWord addr)
    (isOther : IsWord other) :
    index addr = index other ↔ addr = other := by
  constructor
  · intro same
    have positions := congrArg BitVec.toNat same
    rw [isWord.toNat_index, isOther.toNat_index] at positions
    have aligned := isWord.aligned
    have alignedOther := isOther.aligned
    apply BitVec.eq_of_toNat_eq
    omega
  · rintro rfl
    rfl

/-- Reading a word after writing one. -/
theorem readMem_writeMem
    (isWord : IsWord addr)
    (isOther : IsWord other) :
    (memory.writeMem addr data).readMem other =
      if other = addr then data else memory.readMem other := by
  simp only [readMem, writeMem, isWord.inRange, isOther.inRange, if_true,
    Function.update_apply, isOther.index_inj isWord]

/-- Memories with the same words are the same. -/
theorem ext_readMem
    {memory other : Memory}
    (same : ∀ addr, IsWord addr → memory.readMem addr = other.readMem addr) :
    memory = other := by
  funext position
  have bound := position.isLt
  have value :
      (BitVec.ofNat 32 (position.toNat * 4)).toNat = position.toNat * 4 := by
    rw [BitVec.toNat_ofNat]
    omega
  have isWord : IsWord (BitVec.ofNat 32 (position.toNat * 4)) := by
    constructor <;> rw [value] <;> omega
  have isPosition : index (BitVec.ofNat 32 (position.toNat * 4)) = position := by
    apply BitVec.eq_of_toNat_eq
    rw [isWord.toNat_index, value]
    omega
  have word := same _ isWord
  simp only [readMem, isWord.inRange, if_true, isPosition] at word
  exact word

end Memory

/-- The address of a line inside the array. -/
structure Line.IsLine (addr : Bus32) : Prop where
  aligned : addr.toNat % 16 = 0
  inside : addr.toNat < 2 ^ 30

namespace Line

variable {memory : Memory} {addr other : Bus32} {line : Line}

/-- The address of a word of a line. -/
def wordAddr (addr : Bus32) (word : Fin 4) : Bus32 :=
  addr + BitVec.ofNat 32 (word.val * 4)

namespace IsLine

variable (isLine : IsLine addr)
include isLine

/-- The words of a line follow one another. -/
theorem toNat_wordAddr (word : Fin 4) :
    (wordAddr addr word).toNat = addr.toNat + word.val * 4 := by
  have inside := isLine.inside
  have bound := word.isLt
  rw [wordAddr, BitVec.toNat_add, BitVec.toNat_ofNat]
  omega

/-- The words of a line lie inside the array. -/
theorem isWord (word : Fin 4) : Memory.IsWord (wordAddr addr word) := by
  have aligned := isLine.aligned
  have inside := isLine.inside
  have bound := word.isLt
  constructor <;> rw [isLine.toNat_wordAddr word] <;> omega

/-- Words coincide only if their lines and their positions do. -/
theorem wordAddr_inj
    (isOther : IsLine other)
    (word otherWord : Fin 4) :
    wordAddr other otherWord = wordAddr addr word ↔
      other = addr ∧ otherWord = word := by
  constructor
  · intro same
    have positions := congrArg BitVec.toNat same
    rw [isLine.toNat_wordAddr, isOther.toNat_wordAddr] at positions
    have aligned := isLine.aligned
    have alignedOther := isOther.aligned
    have bound := word.isLt
    have boundOther := otherWord.isLt
    exact ⟨BitVec.eq_of_toNat_eq (by omega), Fin.ext (by omega)⟩
  · rintro ⟨rfl, rfl⟩
    rfl

/-- Reading a word after writing a line. -/
theorem readMem_write
    (isOther : IsLine other)
    (word : Fin 4) :
    (Line.write memory addr line).readMem (wordAddr other word) =
      if other = addr then line word
      else memory.readMem (wordAddr other word) := by
  have written :
      Line.write memory addr line =
        (((memory.writeMem (wordAddr addr 0) (line 0)).writeMem
            (wordAddr addr 1) (line 1)).writeMem
              (wordAddr addr 2) (line 2)).writeMem
                (wordAddr addr 3) (line 3) :=
    rfl
  have single :
      ∀ (current : Memory) (position : Fin 4),
        (current.writeMem (wordAddr addr position)
            (line position)).readMem (wordAddr other word) =
          if other = addr ∧ word = position then line position
          else current.readMem (wordAddr other word) := by
    intro current position
    rw [Memory.readMem_writeMem (isLine.isWord position)
      (isOther.isWord word)]
    simp only [isLine.wordAddr_inj isOther]
  rw [written, single, single, single, single]
  by_cases same : other = addr
  · match word with
    | 0 | 1 | 2 | 3 => simp [same]
  · simp [same]

/-- Reading a line after writing one. -/
theorem read_write (isOther : IsLine other) :
    Line.read (Line.write memory addr line) other =
      if other = addr then line else Line.read memory other := by
  funext word
  have single :
      (Line.write memory addr line).readMem (wordAddr other word) = _ :=
    isLine.readMem_write isOther word
  change (Line.write memory addr line).readMem (wordAddr other word) = _
  rw [single]
  split
  · rfl
  · rfl

end IsLine

end Line

end Tartaruga
