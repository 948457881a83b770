import Tartaruga.RiscvFormats

namespace Rv32

/-!
# Arithmetic instructions

The register-register, register-immediate and upper-immediate instructions of
the RV32I base set and the low product of the multiplication extension.  Their
values are given by signed and unsigned integers, reduced to 32 bits at the
end.
-/

/-- Register-register operations. -/
inductive Operation where
  | add
  | sub
  | sll
  | slt
  | sltu
  | xor
  | srl
  | sra
  | or
  | and
  | mul
  deriving Repr, DecidableEq

/-- Operations with a twelve-bit immediate. -/
inductive ImmediateOperation where
  | addi
  | slti
  | sltiu
  | xori
  | ori
  | andi
  deriving Repr, DecidableEq

/-- Shifts by a constant. -/
inductive ShiftOperation where
  | slli
  | srli
  | srai
  deriving Repr, DecidableEq

namespace Operation

/-- The value of an operation.  Shifts use the five low bits of the second
operand. -/
def value (left right : BitVec 32) : Operation → BitVec 32
  | .add => BitVec.ofNat 32 (left.toNat + right.toNat)
  | .sub => BitVec.ofInt 32 (left.toInt - right.toInt)
  | .sll => BitVec.ofNat 32 (left.toNat * 2 ^ (right.toNat % 32))
  | .slt => if left.toInt < right.toInt then 1 else 0
  | .sltu => if left.toNat < right.toNat then 1 else 0
  | .xor => left ^^^ right
  | .srl => BitVec.ofNat 32 (left.toNat / 2 ^ (right.toNat % 32))
  | .sra => BitVec.ofInt 32 (left.toInt / 2 ^ (right.toNat % 32))
  | .or => left ||| right
  | .and => left &&& right
  | .mul => BitVec.ofInt 32 (left.toInt * right.toInt)

/-- The minor opcode. -/
def funct3 : Operation → BitVec 3
  | .add | .sub | .mul => 0b000
  | .sll => 0b001
  | .slt => 0b010
  | .sltu => 0b011
  | .xor => 0b100
  | .srl | .sra => 0b101
  | .or => 0b110
  | .and => 0b111

/-- The modifier. -/
def funct7 : Operation → BitVec 7
  | .sub | .sra => 0b0100000
  | .mul => 0b0000001
  | _ => 0b0000000

end Operation

/-- The operation behind a register-immediate instruction. -/
def ImmediateOperation.operation : ImmediateOperation → Operation
  | .addi => .add
  | .slti => .slt
  | .sltiu => .sltu
  | .xori => .xor
  | .ori => .or
  | .andi => .and

/-- The operation behind a constant shift. -/
def ShiftOperation.operation : ShiftOperation → Operation
  | .slli => .sll
  | .srli => .srl
  | .srai => .sra

/-- Arithmetic instructions. -/
inductive Instruction where
  | op (operation : Operation) (rd rs1 rs2 : BitVec 5)
  | opImm (operation : ImmediateOperation) (rd rs1 : BitVec 5)
      (imm : BitVec 12)
  | shiftImm (operation : ShiftOperation) (rd rs1 shamt : BitVec 5)
  | lui (rd : BitVec 5) (imm : BitVec 20)
  | auipc (rd : BitVec 5) (imm : BitVec 20)
  deriving Repr, DecidableEq

namespace Instruction

/-- The destination. -/
def rd : Instruction → BitVec 5
  | .op _ rd _ _ | .opImm _ rd _ _ | .shiftImm _ rd _ _ | .lui rd _
  | .auipc rd _ => rd

/-- The word of an instruction with two register fields. -/
def registerWord
    (funct7 : BitVec 7)
    (rs2 rs1 : BitVec 5)
    (funct3 : BitVec 3)
    (rd : BitVec 5)
    (opcode : BitVec 7) :
    BitVec 32 :=
  funct7 ++ rs2 ++ rs1 ++ funct3 ++ rd ++ opcode

/-- The word of an instruction. -/
def encode : Instruction → BitVec 32
  | .op operation rd rs1 rs2 =>
      registerWord operation.funct7 rs2 rs1 operation.funct3 rd 0b0110011
  | .opImm operation rd rs1 imm =>
      Format.i.encode
        { opcode := 0b0010011
          rd := rd
          funct3 := operation.operation.funct3
          rs1 := rs1
          rs2 := 0 }
        imm.toInt
  | .shiftImm operation rd rs1 shamt =>
      registerWord operation.operation.funct7 shamt rs1
        operation.operation.funct3 rd 0b0010011
  | .lui rd imm =>
      Format.u.encode
        { opcode := 0b0110111, rd := rd, funct3 := 0, rs1 := 0, rs2 := 0 }
        (imm.toInt * 4096)
  | .auipc rd imm =>
      Format.u.encode
        { opcode := 0b0010111, rd := rd, funct3 := 0, rs1 := 0, rs2 := 0 }
        (imm.toInt * 4096)

/-- The value an instruction writes to its destination. -/
def result
    (pc : BitVec 32)
    (registers : BitVec 5 → BitVec 32) :
    Instruction → BitVec 32
  | .op operation _ rs1 rs2 =>
      operation.value (registers rs1) (registers rs2)
  | .opImm operation _ rs1 imm =>
      operation.operation.value (registers rs1) (BitVec.ofInt 32 imm.toInt)
  | .shiftImm operation _ rs1 shamt =>
      operation.operation.value (registers rs1) (BitVec.ofNat 32 shamt.toNat)
  | .lui _ imm => BitVec.ofInt 32 (imm.toInt * 4096)
  | .auipc _ imm =>
      BitVec.ofInt 32 (pc.toNat + imm.toInt * 4096)

end Instruction

end Rv32
