import Tartaruga.BitFields

namespace Rv32

/-!
# Instruction formats that carry an immediate

The five layouts of the RV32I base instruction set.  An immediate is an
integer; its two's complement pattern is scattered over the word, and a format
can only hold the integers whose pattern it keeps.
-/

/-- The layouts with an immediate. -/
inductive Format where
  | i
  | s
  | b
  | u
  | j
  deriving Repr, DecidableEq

/-- The fields of a word besides the immediate.  A format leaves out those it
has no room for. -/
structure Fields where
  opcode : BitVec 7
  rd : BitVec 5
  funct3 : BitVec 3
  rs1 : BitVec 5
  rs2 : BitVec 5
  deriving Repr, DecidableEq

namespace Format

/-- The opcodes of the instructions in a layout. -/
def opcodes : Format → List (BitVec 7)
  | .i => [0b0010011, 0b0000011, 0b1100111] -- OP-IMM, LOAD, JALR
  | .s => [0b0100011] -- STORE
  | .b => [0b1100011] -- BRANCH
  | .u => [0b0110111, 0b0010111] -- LUI, AUIPC
  | .j => [0b1101111] -- JAL

/-- The integers a layout can hold.  An upper immediate is counted modulo
2^32. -/
def Representable (imm : Int) : Format → Prop
  | .i | .s => -2048 ≤ imm ∧ imm ≤ 2047
  | .b => -4096 ≤ imm ∧ imm ≤ 4094 ∧ imm % 2 = 0
  | .u => imm % 4096 = 0
  | .j => -2 ^ 20 ≤ imm ∧ imm ≤ 2 ^ 20 - 2 ∧ imm % 2 = 0

/-- The word of a layout, most significant field first. -/
def word (fields : Fields) (imm : BitVec 32) : Format → BitVec 32
  | .i =>
      imm.extractLsb' 0 12 ++ fields.rs1 ++ fields.funct3 ++ fields.rd ++
        fields.opcode
  | .s =>
      imm.extractLsb' 5 7 ++ fields.rs2 ++ fields.rs1 ++ fields.funct3 ++
        imm.extractLsb' 0 5 ++ fields.opcode
  | .b =>
      imm.extractLsb' 12 1 ++ imm.extractLsb' 5 6 ++ fields.rs2 ++
        fields.rs1 ++ fields.funct3 ++ imm.extractLsb' 1 4 ++
        imm.extractLsb' 11 1 ++ fields.opcode
  | .u =>
      imm.extractLsb' 12 20 ++ fields.rd ++ fields.opcode
  | .j =>
      imm.extractLsb' 20 1 ++ imm.extractLsb' 1 10 ++
        imm.extractLsb' 11 1 ++ imm.extractLsb' 12 8 ++ fields.rd ++
        fields.opcode

/-- Encode an immediate into a word. -/
def encode (format : Format) (fields : Fields) (imm : Int) : BitVec 32 :=
  format.word fields (BitVec.ofInt 32 imm)

/-- Every layout has the opcode in the same place. -/
theorem opcode_encode (format : Format) (fields : Fields) (imm : Int) :
    (format.encode fields imm).extractLsb' 0 7 = fields.opcode := by
  cases format <;>
    exact BitVec.extractLsb'_append_eq_right

end Format

end Rv32
