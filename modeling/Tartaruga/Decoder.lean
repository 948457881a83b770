import Tartaruga.Package

namespace Tartaruga

/-!
# Decode

The combinational decoder, the immediate generator and the register file.
-/

namespace Opcode

/-- Loads. -/
def lw : BitVec 7 := 0b0000011

/-- Register-immediate arithmetic. -/
def aluI : BitVec 7 := 0b0010011

/-- Add upper immediate to the program counter. -/
def auipc : BitVec 7 := 0b0010111

/-- Stores. -/
def sw : BitVec 7 := 0b0100011

/-- Register-register arithmetic. -/
def alu : BitVec 7 := 0b0110011

/-- Load upper immediate. -/
def lui : BitVec 7 := 0b0110111

/-- Conditional branches. -/
def branch : BitVec 7 := 0b1100011

/-- Jump and link. -/
def jal : BitVec 7 := 0b1101111

/-- Indirect jump and link. -/
def jalr : BitVec 7 := 0b1100111

end Opcode

namespace Funct3

/-- Addition and subtraction; also multiplication. -/
def addSub : BitVec 3 := 0b000

/-- Left shift. -/
def sll : BitVec 3 := 0b001

/-- Signed comparison. -/
def slt : BitVec 3 := 0b010

/-- Unsigned comparison. -/
def sltu : BitVec 3 := 0b011

/-- Exclusive or. -/
def xor : BitVec 3 := 0b100

/-- Logical and arithmetic right shift. -/
def srlSra : BitVec 3 := 0b101

/-- Or. -/
def or : BitVec 3 := 0b110

/-- And. -/
def and : BitVec 3 := 0b111

/-- Branch if equal. -/
def beq : BitVec 3 := 0b000

/-- Branch if different. -/
def bne : BitVec 3 := 0b001

/-- Branch if less, signed. -/
def blt : BitVec 3 := 0b100

/-- Branch if not less, signed. -/
def bge : BitVec 3 := 0b101

/-- Branch if less, unsigned. -/
def bltu : BitVec 3 := 0b110

/-- Branch if not less, unsigned. -/
def bgeu : BitVec 3 := 0b111

end Funct3

namespace Funct7

/-- The unmodified operation. -/
def aluNormal : BitVec 7 := 0b0000000

/-- Multiplication. -/
def mul : BitVec 7 := 0b0000001

/-- Subtraction and arithmetic shift. -/
def aluModified : BitVec 7 := 0b0100000

end Funct7

namespace Word

/-- The opcode field of an instruction word. -/
def opcode (word : Bus32) : BitVec 7 := word.extractLsb' 0 7

/-- The destination field. -/
def rd (word : Bus32) : RegAddr := word.extractLsb' 7 5

/-- The minor opcode field. -/
def func3 (word : Bus32) : BitVec 3 := word.extractLsb' 12 3

/-- The first source field. -/
def rs1 (word : Bus32) : RegAddr := word.extractLsb' 15 5

/-- The second source field. -/
def rs2 (word : Bus32) : RegAddr := word.extractLsb' 20 5

/-- The modifier field. -/
def func7 (word : Bus32) : BitVec 7 := word.extractLsb' 25 7

end Word

namespace Decoder

/--
The assignments that precede the case on the opcode.  The control fields are
set by every branch of the case; their values here are never observed.
-/
def defaults
    (pc instr : Bus32)
    (robIdx : RobIdx)
    (idDecode : Nat) :
    InstrData where
  pc := pc
  instr := instr
  addrRs1 := Word.rs1 instr
  addrRs2 := Word.rs2 instr
  addrRd := Word.rd instr
  writeEnable := false
  rs1OrPc := .rs1
  rs2OrImm := .rs2
  aluOp := .add
  wbOrigin := .alu
  storeToMem := false
  jumpKind := .bnone
  exeStages := exeStagesDefault
  isMul := false
  robIdx := robIdx
  kanataId := idDecode

/-- An illegal instruction is x0 + x0 without a write. -/
def illegal (decoded : InstrData) : InstrData :=
  { decoded with
    writeEnable := false
    rs1OrPc := .rs1
    rs2OrImm := .rs2
    addrRs1 := 0
    addrRs2 := 0
    addrRd := 0
    aluOp := .add
    wbOrigin := .alu
    storeToMem := false }

/-- The `OP_ALU_I` branch. -/
def opAluI (instr : Bus32) (decoded : InstrData) : InstrData :=
  let decoded :=
    { decoded with
      writeEnable := true
      rs1OrPc := .rs1
      rs2OrImm := .imm
      wbOrigin := .alu
      storeToMem := false
      jumpKind := .bnone }
  let func3 := Word.func3 instr
  let func7 := Word.func7 instr
  if func3 = Funct3.addSub then
    { decoded with aluOp := .add }
  else if func3 = Funct3.slt then
    { decoded with aluOp := .slt }
  else if func3 = Funct3.sltu then
    { decoded with aluOp := .sltu }
  else if func3 = Funct3.xor then
    { decoded with aluOp := .xor }
  else if func3 = Funct3.or then
    { decoded with aluOp := .or }
  else if func3 = Funct3.and then
    { decoded with aluOp := .and }
  else if func3 = Funct3.sll then
    if func7 = Funct7.aluNormal then
      { decoded with aluOp := .sll }
    else
      illegal decoded
  else if func3 = Funct3.srlSra then
    if func7 = Funct7.aluNormal then
      { decoded with aluOp := .srl }
    else if func7 = Funct7.aluModified then
      { decoded with aluOp := .sra }
    else
      illegal decoded
  else
    illegal decoded

/-- The minor opcodes of `OP_ALU` that accept only the unmodified operation. -/
def aluNormalOnly
    (instr : Bus32)
    (op : AluOp)
    (decoded : InstrData) :
    InstrData :=
  if Word.func7 instr = Funct7.aluNormal then
    { decoded with aluOp := op }
  else
    illegal decoded

/-- The `OP_ALU` branch, multiplication included. -/
def opAlu (instr : Bus32) (decoded : InstrData) : InstrData :=
  let decoded :=
    { decoded with
      writeEnable := true
      rs1OrPc := .rs1
      rs2OrImm := .rs2
      wbOrigin := .alu
      storeToMem := false
      jumpKind := .bnone }
  let func3 := Word.func3 instr
  let func7 := Word.func7 instr
  if func3 = Funct3.addSub then
    if func7 = Funct7.aluNormal then
      { decoded with aluOp := .add }
    else if func7 = Funct7.aluModified then
      { decoded with aluOp := .sub }
    else if func7 = Funct7.mul then
      { decoded with
        aluOp := .add
        isMul := true
        exeStages := exeStagesMult }
    else
      illegal decoded
  else if func3 = Funct3.sll then
    aluNormalOnly instr .sll decoded
  else if func3 = Funct3.slt then
    aluNormalOnly instr .slt decoded
  else if func3 = Funct3.sltu then
    aluNormalOnly instr .sltu decoded
  else if func3 = Funct3.xor then
    aluNormalOnly instr .xor decoded
  else if func3 = Funct3.srlSra then
    if func7 = Funct7.aluNormal then
      { decoded with aluOp := .srl }
    else if func7 = Funct7.aluModified then
      { decoded with aluOp := .sra }
    else
      illegal decoded
  else if func3 = Funct3.or then
    aluNormalOnly instr .or decoded
  else if func3 = Funct3.and then
    aluNormalOnly instr .and decoded
  else
    illegal decoded

/-- The branch condition selected by `func3`. -/
def branchKind (func3 : BitVec 3) : JumpKind :=
  if func3 = Funct3.beq then .beq
  else if func3 = Funct3.bne then .bne
  else if func3 = Funct3.blt then .blt
  else if func3 = Funct3.bltu then .bltu
  else if func3 = Funct3.bge then .bge
  else if func3 = Funct3.bgeu then .bgeu
  else .bnone

/-- The case on the opcode. -/
def opcodeCase (instr : Bus32) (decoded : InstrData) : InstrData :=
  let opcode := Word.opcode instr
  if opcode = Opcode.aluI then
    opAluI instr decoded
  else if opcode = Opcode.alu then
    opAlu instr decoded
  else if opcode = Opcode.lui then
    -- the first operand is x0, which always reads zero
    { decoded with
      writeEnable := true
      rs1OrPc := .rs1
      rs2OrImm := .imm
      aluOp := .add
      wbOrigin := .alu
      storeToMem := false
      jumpKind := .bnone
      addrRs1 := 0 }
  else if opcode = Opcode.auipc then
    { decoded with
      writeEnable := true
      rs1OrPc := .pc
      rs2OrImm := .imm
      aluOp := .add
      wbOrigin := .alu
      storeToMem := false
      jumpKind := .bnone }
  else if opcode = Opcode.lw then
    { decoded with
      writeEnable := true
      rs1OrPc := .rs1
      rs2OrImm := .imm
      aluOp := .add
      wbOrigin := .mem
      storeToMem := false
      jumpKind := .bnone }
  else if opcode = Opcode.sw then
    { decoded with
      writeEnable := false
      rs1OrPc := .rs1
      rs2OrImm := .imm
      aluOp := .add
      wbOrigin := .alu
      storeToMem := true
      jumpKind := .bnone }
  else if opcode = Opcode.branch then
    { decoded with
      writeEnable := false
      rs1OrPc := .pc
      rs2OrImm := .imm
      aluOp := .add
      wbOrigin := .alu
      storeToMem := false
      jumpKind := branchKind (Word.func3 instr) }
  else if opcode = Opcode.jal then
    { decoded with
      writeEnable := true
      rs1OrPc := .pc
      rs2OrImm := .imm
      aluOp := .add
      wbOrigin := .pc4
      storeToMem := false
      jumpKind := .jump }
  else if opcode = Opcode.jalr then
    { decoded with
      writeEnable := true
      rs1OrPc := .rs1
      rs2OrImm := .imm
      aluOp := .add
      wbOrigin := .pc4
      storeToMem := false
      jumpKind := .jump }
  else
    { illegal decoded with jumpKind := .bnone }

/-- Replace the first source by x0 where nothing reads it. -/
def hardwireRs1 (instr : Bus32) (decoded : InstrData) : InstrData :=
  if (decoded.rs1OrPc = .pc ∧ decoded.jumpKind = .bnone) ∨
      Word.opcode instr = Opcode.jal then
    { decoded with addrRs1 := 0 }
  else
    decoded

/-- Replace the second source by x0 where nothing reads it. -/
def hardwireRs2 (instr : Bus32) (decoded : InstrData) : InstrData :=
  if (decoded.rs2OrImm = .imm ∧ decoded.jumpKind = .bnone ∧
        decoded.storeToMem = false) ∨
      Word.opcode instr = Opcode.jal then
    { decoded with addrRs2 := 0 }
  else
    decoded

end Decoder

/-- The decoder. -/
def decoder
    (pc instr : Bus32)
    (robIdx : RobIdx)
    (idDecode : Nat) :
    InstrData :=
  Decoder.hardwireRs2 instr
    (Decoder.hardwireRs1 instr
      (Decoder.opcodeCase instr
        (Decoder.defaults pc instr robIdx idDecode)))

/-- Replicate one bit over a vector. -/
def replicateBit (width : Nat) (bit : Bool) : BitVec width :=
  if bit then BitVec.allOnes width else 0

/-- The immediate generator. -/
def immediate (instr : Bus32) : Bus32 :=
  let opcode := Word.opcode instr
  if opcode = Opcode.lui ∨ opcode = Opcode.auipc then
    (instr.extractLsb' 12 20 ++ 0#12 : BitVec 32)
  else if opcode = Opcode.aluI ∨ opcode = Opcode.lw ∨
      opcode = Opcode.jalr then
    -- shifts use the five low bits only, so one extender serves them too
    (replicateBit 20 (instr.getLsbD 31) ++
      instr.extractLsb' 20 12 : BitVec 32)
  else if opcode = Opcode.sw then
    (replicateBit 20 (instr.getLsbD 31) ++
      instr.extractLsb' 25 7 ++
      instr.extractLsb' 7 5 : BitVec 32)
  else if opcode = Opcode.branch then
    -- the sign comes from `imm11`, bit 7 of the word
    (replicateBit 20 (instr.getLsbD 7) ++
      instr.extractLsb' 7 1 ++
      instr.extractLsb' 25 6 ++
      instr.extractLsb' 8 4 ++ 0#1 : BitVec 32)
  else if opcode = Opcode.jal then
    (replicateBit 11 (instr.getLsbD 31) ++
      instr.extractLsb' 31 1 ++
      instr.extractLsb' 12 8 ++
      instr.extractLsb' 20 1 ++
      instr.extractLsb' 21 10 ++ 0#1 : BitVec 32)
  else
    0

/-- The contents of the register file. -/
abbrev Regfile := RegAddr → Bus32

namespace Regfile

/-- `REG_COUNT`; both loops of the register file stop one short of it. -/
def regCount : Nat := 32

/-- Reset clears the registers its loop reaches and leaves the last one. -/
def reset (registers : Regfile) : Regfile :=
  fun register =>
    if register.toNat < regCount - 1 then 0 else registers register

/-- One clock edge of the register file. -/
def clock
    (registers : Regfile)
    (addrRd : RegAddr)
    (dataRd : Bus32)
    (writeEnable : Bool) :
    Regfile :=
  fun register =>
    if 1 ≤ register.toNat ∧ register.toNat < regCount - 1 ∧
        register = addrRd ∧ writeEnable = true then
      dataRd
    else
      registers register

end Regfile

end Tartaruga
