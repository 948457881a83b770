import Tartaruga.Decoder
import Tartaruga.RiscvFormats

namespace Tartaruga

/-!
# Immediates

The immediate generator against the encoding of the five instruction formats.
Four of them are inverted everywhere.  In the branch format the sign is taken
from bit 11 of the offset, which is the sign of the offsets within a reach of
two kilobytes only.
-/

open Rv32 (Format Fields)

/-- A sign bit repeated, in numbers. -/
theorem toNat_replicateBit (width : Nat) (bit : Bool) :
    (replicateBit width bit).toNat = if bit then 2 ^ width - 1 else 0 := by
  cases bit <;> simp [replicateBit]

section Formats

variable {fields : Fields} {imm : Int}

/-- The opcode of an encoded word. -/
theorem opcode_encode (format : Format) (fields : Fields) (imm : Int) :
    Word.opcode (format.encode fields imm) = fields.opcode :=
  format.opcode_encode fields imm

/-- Upper immediates are inverted. -/
theorem immediate_encode_u
    (uses : fields.opcode ∈ Format.u.opcodes)
    (representable : Format.u.Representable imm) :
    immediate (Format.u.encode fields imm) = BitVec.ofInt 32 imm := by
  have isUpper :
      fields.opcode = Opcode.lui ∨ fields.opcode = Opcode.auipc := by
    simpa [Format.opcodes, Opcode.lui, Opcode.auipc] using uses
  simp only [immediate, opcode_encode, if_pos isUpper]
  simp (disch := decide) only [Format.encode, Format.word,
    BitVec.extractLsb'_append_eq_of_le]
  apply BitVec.eq_of_toNat_eq
  simp only [Format.Representable] at representable
  simp only [BitFields.toNat_append_eq, BitFields.toNat_extractLsb'_eq,
    BitVec.toNat_ofInt, BitVec.toNat_ofNat]
  omega

/-- Immediates of register-immediate instructions are inverted. -/
theorem immediate_encode_i
    (uses : fields.opcode ∈ Format.i.opcodes)
    (representable : Format.i.Representable imm) :
    immediate (Format.i.encode fields imm) = BitVec.ofInt 32 imm := by
  have isI :
      fields.opcode = Opcode.aluI ∨ fields.opcode = Opcode.lw ∨
        fields.opcode = Opcode.jalr := by
    simpa [Format.opcodes, Opcode.aluI, Opcode.lw, Opcode.jalr] using uses
  have notUpper :
      ¬(fields.opcode = Opcode.lui ∨ fields.opcode = Opcode.auipc) := by
    rcases isI with opcode | opcode | opcode <;>
      · rw [opcode]
        decide
  simp only [immediate, opcode_encode, if_neg notUpper, if_pos isI]
  simp (disch := decide) only [Format.encode, Format.word,
    BitVec.extractLsb'_append_eq_of_le, BitFields.getLsbD_append_of_le]
  apply BitVec.eq_of_toNat_eq
  simp only [Format.Representable] at representable
  simp only [BitFields.toNat_append_eq, BitFields.toNat_extractLsb'_eq,
    toNat_replicateBit, BitFields.getLsbD_eq, decide_eq_true_eq,
    BitVec.toNat_ofInt]
  split <;> omega

/-- Immediates of stores are inverted. -/
theorem immediate_encode_s
    (uses : fields.opcode ∈ Format.s.opcodes)
    (representable : Format.s.Representable imm) :
    immediate (Format.s.encode fields imm) = BitVec.ofInt 32 imm := by
  have isStore : fields.opcode = Opcode.sw := by
    simpa [Format.opcodes, Opcode.sw] using uses
  have unfolded :
      immediate (Format.s.encode fields imm) =
        (replicateBit 20 ((Format.s.encode fields imm).getLsbD 31) ++
          (Format.s.encode fields imm).extractLsb' 25 7 ++
          (Format.s.encode fields imm).extractLsb' 7 5 : BitVec 32) := by
    simp only [immediate, opcode_encode, isStore]
    rfl
  rw [unfolded]
  simp (disch := decide) only [Format.encode, Format.word,
    BitVec.extractLsb'_append_eq_of_le, BitFields.getLsbD_append_of_le,
    BitVec.extractLsb'_append_eq_of_add_le]
  apply BitVec.eq_of_toNat_eq
  simp only [Format.Representable] at representable
  simp only [BitFields.toNat_append_eq, BitFields.toNat_extractLsb'_eq,
    toNat_replicateBit, BitFields.getLsbD_eq, decide_eq_true_eq,
    BitVec.toNat_ofInt]
  split <;> omega

/-- Offsets of jumps are inverted. -/
theorem immediate_encode_j
    (uses : fields.opcode ∈ Format.j.opcodes)
    (representable : Format.j.Representable imm) :
    immediate (Format.j.encode fields imm) = BitVec.ofInt 32 imm := by
  have isJump : fields.opcode = Opcode.jal := by
    simpa [Format.opcodes, Opcode.jal] using uses
  have unfolded :
      immediate (Format.j.encode fields imm) =
        (replicateBit 11 ((Format.j.encode fields imm).getLsbD 31) ++
          (Format.j.encode fields imm).extractLsb' 31 1 ++
          (Format.j.encode fields imm).extractLsb' 12 8 ++
          (Format.j.encode fields imm).extractLsb' 20 1 ++
          (Format.j.encode fields imm).extractLsb' 21 10 ++ 0#1 :
          BitVec 32) := by
    simp only [immediate, opcode_encode, isJump]
    rfl
  rw [unfolded]
  simp (disch := decide) only [Format.encode, Format.word,
    BitVec.extractLsb'_append_eq_of_le, BitFields.getLsbD_append_of_le,
    BitVec.extractLsb'_append_eq_of_add_le]
  apply BitVec.eq_of_toNat_eq
  simp only [Format.Representable] at representable
  simp only [BitFields.toNat_append_eq, BitFields.toNat_extractLsb'_eq,
    toNat_replicateBit, BitFields.getLsbD_eq, decide_eq_true_eq,
    BitVec.toNat_ofInt, BitVec.toNat_ofNat]
  split <;> omega

/-- The offset of a branch is taken from its low twelve bits. -/
theorem immediate_encode_b
    (uses : fields.opcode ∈ Format.b.opcodes)
    (representable : Format.b.Representable imm) :
    immediate (Format.b.encode fields imm) = BitVec.ofInt 32 imm ↔
      -2048 ≤ imm ∧ imm ≤ 2046 := by
  have isBranch : fields.opcode = Opcode.branch := by
    simpa [Format.opcodes, Opcode.branch] using uses
  have unfolded :
      immediate (Format.b.encode fields imm) =
        (replicateBit 20 ((Format.b.encode fields imm).getLsbD 7) ++
          (Format.b.encode fields imm).extractLsb' 7 1 ++
          (Format.b.encode fields imm).extractLsb' 25 6 ++
          (Format.b.encode fields imm).extractLsb' 8 4 ++ 0#1 :
          BitVec 32) := by
    simp only [immediate, opcode_encode, isBranch]
    rfl
  rw [unfolded]
  simp (disch := decide) only [Format.encode, Format.word,
    BitVec.extractLsb'_append_eq_of_le, BitFields.getLsbD_append_of_le,
    BitFields.getLsbD_append_of_lt,
    BitVec.extractLsb'_append_eq_of_add_le]
  rw [← BitVec.toNat_inj]
  simp only [Format.Representable] at representable
  simp only [BitFields.toNat_append_eq, BitFields.toNat_extractLsb'_eq,
    toNat_replicateBit, BitFields.getLsbD_eq, decide_eq_true_eq,
    BitVec.toNat_ofInt, BitVec.toNat_ofNat]
  split <;> omega

end Formats

/--
Decoding inverts encoding for every immediate that a format can hold, except
for branch offsets beyond two kilobytes in either direction.
-/
theorem immediate_encode_iff
    (format : Format)
    (fields : Fields)
    (imm : Int)
    (uses : fields.opcode ∈ format.opcodes)
    (representable : format.Representable imm) :
    immediate (format.encode fields imm) = BitVec.ofInt 32 imm ↔
      (format = .b → -2048 ≤ imm ∧ imm ≤ 2046) := by
  cases format with
  | i => simp [immediate_encode_i uses representable]
  | s => simp [immediate_encode_s uses representable]
  | b => simp [immediate_encode_b uses representable]
  | u => simp [immediate_encode_u uses representable]
  | j => simp [immediate_encode_j uses representable]

/-- The fields of a branch on two equal registers. -/
def beqFields : Fields where
  opcode := 0b1100011
  rd := 0
  funct3 := 0
  rs1 := 0
  rs2 := 0

/-- The farthest forward branch that is decoded correctly. -/
theorem immediate_encode_iff_branch :
    immediate (Format.b.encode beqFields 2046) = BitVec.ofInt 32 2046 :=
  (immediate_encode_iff .b beqFields 2046 (by decide)
    (by simp [Format.Representable])).mpr (by simp)

/-- A branch two kilobytes forward goes two kilobytes back. -/
theorem immediate_not_inverse :
    ¬∀ (format : Format) (fields : Fields) (imm : Int),
      fields.opcode ∈ format.opcodes →
        format.Representable imm →
          immediate (format.encode fields imm) = BitVec.ofInt 32 imm := by
  intro inverts
  have decoded := inverts .b beqFields 2048 (by decide)
    (by simp [Format.Representable])
  have wrong :
      immediate (Format.b.encode beqFields 2048) =
        BitVec.ofInt 32 (-2048) := by
    decide
  rw [wrong] at decoded
  revert decoded
  decide

end Tartaruga
