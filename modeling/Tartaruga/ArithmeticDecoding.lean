import Tartaruga.CoreEvaluation
import Tartaruga.ExeOutcome
import Tartaruga.ImmediateDecoding
import Tartaruga.RiscvArithmetic

namespace Tartaruga

/-!
# Arithmetic instructions

From the word of an arithmetic instruction to the value the memory stage hands
to write-back, against the meaning of the instruction.
-/

open Rv32 (Operation ImmediateOperation ShiftOperation Instruction Format)

/-- What decode hands to execute when both sources come from the register
file. -/
def DecodeToExe.ofRegfile
    (pc instr : Bus32)
    (robIdx : RobIdx)
    (idDecode : Nat)
    (registers : Regfile) :
    DecodeToExe where
  instr := decoder pc instr robIdx idDecode
  valid := true
  dataRs1 := registers (decoder pc instr robIdx idDecode).addrRs1
  dataRs2 := registers (decoder pc instr robIdx idDecode).addrRs2
  immediate := Tartaruga.immediate instr

/-- Without a pending writer of its sources, the instruction in decode is
handed over with the contents of the register file. -/
theorem Datapath.decodeToExeD_of_regfile
    {core : Datapath}
    {answer : FetchAnswer}
    (noHazardRs1 : core.hazardRs1.hazard = false)
    (noHazardRs2 : core.hazardRs2.hazard = false)
    (handedOver : (core.decodeToExeD answer).valid = true) :
    core.decodeToExeD answer =
      DecodeToExe.ofRegfile core.pcDecode core.instructionQ
        core.rob.robEntryAlloc core.idDecode core.regfile := by
  have word : core.decoded.instr = core.instructionQ :=
    decoder_instr _ _ _ _
  have decoded :
      core.decodeToExeD answer =
        { DecodeToExe.ofRegfile core.pcDecode core.instructionQ
            core.rob.robEntryAlloc core.idDecode core.regfile with
          valid := (core.decodeToExeD answer).valid } := by
    simp only [decodeToExeD, operand, noHazardRs1, noHazardRs2, word,
      Bool.false_eq_true, ↓reduceIte]
    rfl
  rw [decoded, handedOver]
  rfl

/-- The operation of the arithmetic unit; a multiplication leaves it at
addition. -/
def aluOpOf : Operation → AluOp
  | .add | .mul => .add
  | .sub => .sub
  | .sll => .sll
  | .slt => .slt
  | .sltu => .sltu
  | .xor => .xor
  | .srl => .srl
  | .sra => .sra
  | .or => .or
  | .and => .and

/-- The five low bits of the second operand. -/
theorem shiftAmount (data : Bus32) :
    (data.extractLsb' 0 5).toNat = data.toNat % 32 := by
  rw [BitFields.toNat_extractLsb'_eq]
  simp

/-- The arithmetic unit computes the value of the operation. -/
theorem alu_eq_value
    (left right : Bus32)
    (operation : Operation)
    (notMul : operation ≠ .mul) :
    alu left right (aluOpOf operation) = operation.value left right := by
  cases operation with
  | mul => exact (notMul rfl).elim
  | xor | or | and => rfl
  | add =>
      apply BitVec.eq_of_toNat_eq
      simp [aluOpOf, alu, Operation.value]
  | sub =>
      apply BitVec.eq_of_toInt_eq
      simp [aluOpOf, alu, Operation.value, BitVec.toInt_sub]
  | slt => simp [aluOpOf, alu, Operation.value, BitVec.slt]
  | sltu => simp [aluOpOf, alu, Operation.value, BitVec.ult]
  | sll =>
      apply BitVec.eq_of_toNat_eq
      simp only [aluOpOf, alu, Operation.value, shiftAmount,
        BitVec.toNat_shiftLeft, BitVec.toNat_ofNat, Nat.shiftLeft_eq]
  | srl =>
      apply BitVec.eq_of_toNat_eq
      simp only [aluOpOf, alu, Operation.value, shiftAmount,
        BitVec.toNat_ushiftRight, BitVec.toNat_ofNat,
        Nat.shiftRight_eq_div_pow]
      exact (Nat.mod_eq_of_lt
        (Nat.lt_of_le_of_lt (Nat.div_le_self _ _) left.isLt)).symm
  | sra =>
      simp only [aluOpOf, alu, Operation.value, shiftAmount,
        BitVec.sshiftRight, Int.shiftRight_eq_div_pow]
      norm_cast

/-- The multiplier computes the low half of the product. -/
theorem mul_eq_value (left right : Bus32) :
    left * right = Operation.mul.value left right := by
  apply BitVec.eq_of_toInt_eq
  simp [Operation.value, BitVec.toInt_mul]

namespace Word

section RegisterWord

variable (func7 : BitVec 7) (rs2 rs1 : RegAddr) (func3 : BitVec 3)
  (rd : RegAddr) (opcode : BitVec 7)

@[simp] theorem opcode_registerWord :
    Word.opcode (Instruction.registerWord func7 rs2 rs1 func3 rd opcode) =
      opcode :=
  BitVec.extractLsb'_append_eq_right

@[simp] theorem rd_registerWord :
    Word.rd (Instruction.registerWord func7 rs2 rs1 func3 rd opcode) =
      rd := by
  simp (disch := decide) only [Instruction.registerWord, Word.rd,
    BitVec.extractLsb'_append_eq_of_le,
    BitVec.extractLsb'_append_eq_of_add_le]
  exact BitVec.extractLsb'_eq_self

@[simp] theorem func3_registerWord :
    Word.func3 (Instruction.registerWord func7 rs2 rs1 func3 rd opcode) =
      func3 := by
  simp (disch := decide) only [Instruction.registerWord, Word.func3,
    BitVec.extractLsb'_append_eq_of_le,
    BitVec.extractLsb'_append_eq_of_add_le]
  exact BitVec.extractLsb'_eq_self

@[simp] theorem rs1_registerWord :
    Word.rs1 (Instruction.registerWord func7 rs2 rs1 func3 rd opcode) =
      rs1 := by
  simp (disch := decide) only [Instruction.registerWord, Word.rs1,
    BitVec.extractLsb'_append_eq_of_le,
    BitVec.extractLsb'_append_eq_of_add_le]
  exact BitVec.extractLsb'_eq_self

@[simp] theorem rs2_registerWord :
    Word.rs2 (Instruction.registerWord func7 rs2 rs1 func3 rd opcode) =
      rs2 := by
  simp (disch := decide) only [Instruction.registerWord, Word.rs2,
    BitVec.extractLsb'_append_eq_of_le,
    BitVec.extractLsb'_append_eq_of_add_le]
  exact BitVec.extractLsb'_eq_self

@[simp] theorem func7_registerWord :
    Word.func7 (Instruction.registerWord func7 rs2 rs1 func3 rd opcode) =
      func7 := by
  simp (disch := decide) only [Instruction.registerWord, Word.func7,
    BitVec.extractLsb'_append_eq_of_le]
  exact BitVec.extractLsb'_eq_self

end RegisterWord

section ImmediateWord

variable (fields : Rv32.Fields) (imm : Int)

@[simp] theorem rd_encode_i :
    Word.rd (Format.i.encode fields imm) = fields.rd := by
  simp (disch := decide) only [Format.encode, Format.word, Word.rd,
    BitVec.extractLsb'_append_eq_of_le,
    BitVec.extractLsb'_append_eq_of_add_le]
  exact BitVec.extractLsb'_eq_self

@[simp] theorem func3_encode_i :
    Word.func3 (Format.i.encode fields imm) = fields.funct3 := by
  simp (disch := decide) only [Format.encode, Format.word, Word.func3,
    BitVec.extractLsb'_append_eq_of_le,
    BitVec.extractLsb'_append_eq_of_add_le]
  exact BitVec.extractLsb'_eq_self

@[simp] theorem rs1_encode_i :
    Word.rs1 (Format.i.encode fields imm) = fields.rs1 := by
  simp (disch := decide) only [Format.encode, Format.word, Word.rs1,
    BitVec.extractLsb'_append_eq_of_le,
    BitVec.extractLsb'_append_eq_of_add_le]
  exact BitVec.extractLsb'_eq_self

@[simp] theorem rd_encode_u :
    Word.rd (Format.u.encode fields imm) = fields.rd := by
  simp (disch := decide) only [Format.encode, Format.word, Word.rd,
    BitVec.extractLsb'_append_eq_of_le,
    BitVec.extractLsb'_append_eq_of_add_le]
  exact BitVec.extractLsb'_eq_self

end ImmediateWord

end Word

namespace Decoder

variable {word : Bus32} {operation : Operation}

/-- The branch of register arithmetic. -/
theorem opAlu_eq
    (func3 : Word.func3 word = operation.funct3)
    (func7 : Word.func7 word = operation.funct7)
    (decoded : InstrData) :
    opAlu word decoded =
      { decoded with
        writeEnable := true
        rs1OrPc := .rs1
        rs2OrImm := .rs2
        aluOp := aluOpOf operation
        wbOrigin := .alu
        storeToMem := false
        jumpKind := .bnone
        exeStages :=
          if operation = .mul then exeStagesMult else decoded.exeStages
        isMul := decide (operation = .mul) || decoded.isMul } := by
  cases operation <;>
    simp [opAlu, aluNormalOnly, func3, func7, Operation.funct3,
      Operation.funct7, aluOpOf, Funct3.addSub, Funct3.sll, Funct3.slt,
      Funct3.sltu, Funct3.xor, Funct3.srlSra, Funct3.or, Funct3.and,
      Funct7.aluNormal, Funct7.aluModified, Funct7.mul]

/-- The assignments of the branch of immediate arithmetic. -/
def aluIAssignments (operation : Operation) (decoded : InstrData) :
    InstrData :=
  { decoded with
    writeEnable := true
    rs1OrPc := .rs1
    rs2OrImm := .imm
    aluOp := aluOpOf operation
    wbOrigin := .alu
    storeToMem := false
    jumpKind := .bnone }

/-- The branch of immediate arithmetic. -/
theorem opAluI_immediate
    {operation : ImmediateOperation}
    (func3 : Word.func3 word = operation.operation.funct3)
    (decoded : InstrData) :
    opAluI word decoded = aluIAssignments operation.operation decoded := by
  cases operation <;>
    simp [opAluI, aluIAssignments, func3, ImmediateOperation.operation,
      Operation.funct3, aluOpOf, Funct3.addSub, Funct3.slt, Funct3.sltu,
      Funct3.xor, Funct3.or, Funct3.and]

/-- The branch of immediate arithmetic, for shifts. -/
theorem opAluI_shift
    {operation : ShiftOperation}
    (func3 : Word.func3 word = operation.operation.funct3)
    (func7 : Word.func7 word = operation.operation.funct7)
    (decoded : InstrData) :
    opAluI word decoded = aluIAssignments operation.operation decoded := by
  cases operation <;>
    simp [opAluI, aluIAssignments, func3, func7, ShiftOperation.operation,
      Operation.funct3, Operation.funct7, aluOpOf, Funct3.addSub,
      Funct3.slt, Funct3.sltu, Funct3.xor, Funct3.or, Funct3.and,
      Funct3.sll, Funct3.srlSra, Funct7.aluNormal, Funct7.aluModified]

variable (pc : Bus32) (robIdx : RobIdx) (idDecode : Nat)

/-- A register-register instruction, decoded. -/
theorem decoder_alu
    (opcode : Word.opcode word = Opcode.alu)
    (func3 : Word.func3 word = operation.funct3)
    (func7 : Word.func7 word = operation.funct7) :
    decoder pc word robIdx idDecode =
      { defaults pc word robIdx idDecode with
        writeEnable := true
        aluOp := aluOpOf operation
        exeStages :=
          if operation = .mul then exeStagesMult else exeStagesDefault
        isMul := decide (operation = .mul) } := by
  have notAluI : Opcode.alu ≠ Opcode.aluI := by decide
  have notJal : Opcode.alu ≠ Opcode.jal := by decide
  simp only [decoder, opcodeCase, opcode, if_neg notAluI, ↓reduceIte,
    opAlu_eq func3 func7]
  simp [hardwireRs1, hardwireRs2, opcode, notJal, defaults]

/-- A register-immediate instruction, decoded. -/
theorem decoder_aluI
    (opcode : Word.opcode word = Opcode.aluI)
    (branch :
      ∀ decoded, opAluI word decoded = aluIAssignments operation decoded) :
    decoder pc word robIdx idDecode =
      { aluIAssignments operation (defaults pc word robIdx idDecode) with
        addrRs2 := 0 } := by
  have notJal : Opcode.aluI ≠ Opcode.jal := by decide
  simp only [decoder, opcodeCase, opcode, ↓reduceIte, branch]
  simp [hardwireRs1, hardwireRs2, opcode, notJal, aluIAssignments]

/-- A load of an upper immediate, decoded: an addition to x0. -/
theorem decoder_lui (opcode : Word.opcode word = Opcode.lui) :
    decoder pc word robIdx idDecode =
      { defaults pc word robIdx idDecode with
        writeEnable := true
        rs2OrImm := .imm
        addrRs1 := 0
        addrRs2 := 0 } := by
  have notAluI : Opcode.lui ≠ Opcode.aluI := by decide
  have notAlu : Opcode.lui ≠ Opcode.alu := by decide
  have notJal : Opcode.lui ≠ Opcode.jal := by decide
  simp only [decoder, opcodeCase, opcode, if_neg notAluI, if_neg notAlu,
    ↓reduceIte]
  simp [hardwireRs1, hardwireRs2, opcode, notJal, defaults]

/-- An addition of an upper immediate to the program counter, decoded. -/
theorem decoder_auipc (opcode : Word.opcode word = Opcode.auipc) :
    decoder pc word robIdx idDecode =
      { defaults pc word robIdx idDecode with
        writeEnable := true
        rs1OrPc := .pc
        rs2OrImm := .imm
        addrRs1 := 0
        addrRs2 := 0 } := by
  have notAluI : Opcode.auipc ≠ Opcode.aluI := by decide
  have notAlu : Opcode.auipc ≠ Opcode.alu := by decide
  have notLui : Opcode.auipc ≠ Opcode.lui := by decide
  have notJal : Opcode.auipc ≠ Opcode.jal := by decide
  simp only [decoder, opcodeCase, opcode, if_neg notAluI, if_neg notAlu,
    if_neg notLui, ↓reduceIte]
  simp [hardwireRs1, hardwireRs2, opcode, notJal, defaults]

end Decoder

/-- What an instruction is to write, and that it does nothing else. -/
structure DecodeToExe.Computes
    (input : DecodeToExe)
    (rd : RegAddr)
    (value : Bus32) :
    Prop where
  writeEnable : input.instr.writeEnable = true
  addrRd : input.instr.addrRd = rd
  storeToMem : input.instr.storeToMem = false
  wbOrigin : input.instr.wbOrigin = .alu
  jumpKind : input.instr.jumpKind = .bnone
  ownResult : Exe.ownResult input = value

section Values

variable {word : Bus32} {operation : Operation} (pc : Bus32)
  (robIdx : RobIdx) (idDecode : Nat) (registers : Regfile)

/-- Register-register instructions. -/
theorem computes_alu
    (opcode : Word.opcode word = Opcode.alu)
    (func3 : Word.func3 word = operation.funct3)
    (func7 : Word.func7 word = operation.funct7) :
    (DecodeToExe.ofRegfile pc word robIdx idDecode registers).Computes
      (Word.rd word)
      (operation.value (registers (Word.rs1 word))
        (registers (Word.rs2 word))) := by
  simp only [DecodeToExe.ofRegfile,
    Decoder.decoder_alu pc robIdx idDecode opcode func3 func7,
    Decoder.defaults]
  refine ⟨rfl, rfl, rfl, rfl, rfl, ?_⟩
  simp only [Exe.ownResult, Exe.aluDataRs1, Exe.aluDataRs2, Exe.resAlu,
    ↓reduceIte, decide_eq_true_eq]
  split
  case isTrue isMul =>
    rw [isMul]
    exact mul_eq_value _ _
  case isFalse notMul =>
    exact alu_eq_value _ _ _ notMul

/-- Register-immediate instructions. -/
theorem computes_aluI
    (opcode : Word.opcode word = Opcode.aluI)
    (branch :
      ∀ decoded,
        Decoder.opAluI word decoded =
          Decoder.aluIAssignments operation decoded)
    (notMul : operation ≠ .mul) :
    (DecodeToExe.ofRegfile pc word robIdx idDecode registers).Computes
      (Word.rd word)
      (operation.value (registers (Word.rs1 word)) (immediate word)) := by
  simp only [DecodeToExe.ofRegfile,
    Decoder.decoder_aluI pc robIdx idDecode opcode branch,
    Decoder.aluIAssignments, Decoder.defaults]
  refine ⟨rfl, rfl, rfl, rfl, rfl, ?_⟩
  exact alu_eq_value _ _ _ notMul

/-- Loads of an upper immediate. -/
theorem computes_lui
    (opcode : Word.opcode word = Opcode.lui)
    (hardwired : registers 0 = 0) :
    (DecodeToExe.ofRegfile pc word robIdx idDecode registers).Computes
      (Word.rd word) (immediate word) := by
  simp only [DecodeToExe.ofRegfile,
    Decoder.decoder_lui pc robIdx idDecode opcode, Decoder.defaults]
  refine ⟨rfl, rfl, rfl, rfl, rfl, ?_⟩
  have noOperand : registers 0 + immediate word = immediate word := by
    rw [hardwired]
    exact BitVec.zero_add _
  exact noOperand

/-- Additions of an upper immediate to the program counter. -/
theorem computes_auipc (opcode : Word.opcode word = Opcode.auipc) :
    (DecodeToExe.ofRegfile pc word robIdx idDecode registers).Computes
      (Word.rd word) (pc + immediate word) := by
  simp only [DecodeToExe.ofRegfile,
    Decoder.decoder_auipc pc robIdx idDecode opcode, Decoder.defaults]
  exact ⟨rfl, rfl, rfl, rfl, rfl, rfl⟩

/-- Shifts read the five low bits of their second operand only. -/
theorem value_shift_congr
    (operation : ShiftOperation)
    {left right other : Bus32}
    (same : right.toNat % 32 = other.toNat % 32) :
    operation.operation.value left right =
      operation.operation.value left other := by
  cases operation <;>
    simp only [ShiftOperation.operation, Operation.value, same]

/-- The second source field is the low part of the immediate. -/
theorem immediate_shiftAmount (opcode : Word.opcode word = Opcode.aluI) :
    (immediate word).toNat % 32 = (Word.rs2 word).toNat := by
  have notUpper :
      ¬(Opcode.aluI = Opcode.lui ∨ Opcode.aluI = Opcode.auipc) := by
    decide
  simp only [immediate, opcode, if_neg notUpper, true_or, ↓reduceIte,
    BitFields.toNat_append_eq, BitFields.toNat_extractLsb'_eq, Word.rs2]
  omega

/-- A twelve-bit immediate fits its format. -/
theorem representable_toInt (imm : BitVec 12) :
    Format.i.Representable imm.toInt := by
  have lower : -2 ^ (12 - 1) ≤ imm.toInt := BitVec.le_toInt imm
  have upper : imm.toInt < 2 ^ (12 - 1) := BitVec.toInt_lt
  simp only [Format.Representable]
  omega

/-- Every arithmetic instruction computes its value. -/
theorem computes_encode
    (instruction : Instruction)
    (hardwired : registers 0 = 0) :
    (DecodeToExe.ofRegfile pc instruction.encode robIdx idDecode
        registers).Computes
      instruction.rd (instruction.result pc registers) := by
  cases instruction with
  | op operation rd rs1 rs2 =>
      have computes := computes_alu pc robIdx idDecode registers
        (Word.opcode_registerWord operation.funct7 rs2 rs1
          operation.funct3 rd Opcode.alu)
        (Word.func3_registerWord _ _ _ _ _ _)
        (Word.func7_registerWord _ _ _ _ _ _)
      rw [Word.rd_registerWord, Word.rs1_registerWord,
        Word.rs2_registerWord] at computes
      exact computes
  | opImm operation rd rs1 imm =>
      have computes := computes_aluI pc robIdx idDecode registers
        (opcode_encode .i
          { opcode := Opcode.aluI
            rd := rd
            funct3 := operation.operation.funct3
            rs1 := rs1
            rs2 := 0 }
          imm.toInt)
        (Decoder.opAluI_immediate (Word.func3_encode_i _ _))
        (by cases operation <;> decide)
      rw [Word.rd_encode_i, Word.rs1_encode_i,
        immediate_encode_i (by simp [Format.opcodes, Opcode.aluI])
          (representable_toInt imm)] at computes
      exact computes
  | shiftImm operation rd rs1 shamt =>
      have opcode := Word.opcode_registerWord operation.operation.funct7
        shamt rs1 operation.operation.funct3 rd Opcode.aluI
      have computes := computes_aluI pc robIdx idDecode registers opcode
        (Decoder.opAluI_shift (Word.func3_registerWord _ _ _ _ _ _)
          (Word.func7_registerWord _ _ _ _ _ _))
        (by cases operation <;> decide)
      have amount := immediate_shiftAmount opcode
      rw [Word.rs2_registerWord] at amount
      rw [Word.rd_registerWord, Word.rs1_registerWord] at computes
      have same :
          operation.operation.value (registers rs1)
              (immediate (Instruction.registerWord
                operation.operation.funct7 shamt rs1
                operation.operation.funct3 rd Opcode.aluI)) =
            operation.operation.value (registers rs1)
              (BitVec.ofNat 32 shamt.toNat) := by
        apply value_shift_congr
        rw [amount, BitVec.toNat_ofNat]
        omega
      rw [same] at computes
      exact computes
  | lui rd imm =>
      have computes := computes_lui pc robIdx idDecode registers
        (opcode_encode .u
          { opcode := Opcode.lui, rd := rd, funct3 := 0, rs1 := 0, rs2 := 0 }
          (imm.toInt * 4096))
        hardwired
      rw [Word.rd_encode_u, immediate_encode_u
        (by simp [Format.opcodes, Opcode.lui])
        (by simp [Format.Representable])] at computes
      exact computes
  | auipc rd imm =>
      have computes := computes_auipc pc robIdx idDecode registers
        (opcode_encode .u
          { opcode := Opcode.auipc
            rd := rd
            funct3 := 0
            rs1 := 0
            rs2 := 0 }
          (imm.toInt * 4096))
      rw [Word.rd_encode_u, immediate_encode_u
        (by simp [Format.opcodes, Opcode.auipc])
        (by simp [Format.Representable])] at computes
      have sum :
          pc + BitVec.ofInt 32 (imm.toInt * 4096) =
            BitVec.ofInt 32 (pc.toNat + imm.toInt * 4096) := by
        rw [BitVec.ofInt_add, BitVec.ofInt_natCast, BitVec.ofNat_toNat,
          BitVec.setWidth_eq]
      rw [sum] at computes
      exact computes

end Values

namespace Exe

/-- How many cycles after its entry an instruction leaves. -/
def latency (input : DecodeToExe) : Nat :=
  input.instr.exeStages.toNat - 1

variable {initial : Exe} {stimulus : Nat → DecodeToExe}

/-- A multiplication moves on by one slot in every cycle. -/
theorem run_exePipe_mult
    (isMult : (stimulus 0).instr.exeStages = exeStagesMult)
    (valid : (stimulus 0).valid = true)
    (stage : Fin 5) :
    (Clocked.run clock initial stimulus (stage.val + 1)).exePipeQ stage =
      stimulus 0 := by
  induction stage using Fin.induction with
  | zero =>
      exact exePipeD_first initial isMult
  | succ stage inductionHypothesis =>
      change
        (Clocked.run clock initial stimulus (stage.val + 1)).exePipeD
            (stimulus (stage.val + 1)) stage.succ =
          stimulus 0
      have shifted :
          (Clocked.run clock initial stimulus
              (stage.val + 1)).shifted stage.succ =
            stimulus 0 := by
        rw [shifted_succ]
        exact inductionHypothesis
      rw [exePipeD_of_valid (by rw [shifted]; exact valid), shifted]

/-- An instruction that is accepted leaves after its latency, with its own
outcome. -/
theorem outcome_after_latency
    (shape : (stimulus 0).instr.Shape)
    (valid : (stimulus 0).valid = true)
    (accepted : initial.stall (stimulus 0) = false) :
    Outcome (stimulus 0)
      ((Clocked.run clock initial stimulus
          (latency (stimulus 0))).exeToMemD
        (stimulus (latency (stimulus 0)))) := by
  rcases shape.stages with ⟨isMul, isMult⟩ | ⟨notMul, single⟩
  · have fourCycles : latency (stimulus 0) = 4 := by
      rw [latency, isMult]
      rfl
    rw [fourCycles]
    exact outcome_of_last shape valid
      (run_exePipe_mult isMult valid 4) (.inl ⟨isMul, rfl⟩)
  · have sameCycle : latency (stimulus 0) = 0 := by
      rw [latency, single]
      rfl
    rw [stall_default single] at accepted
    rw [sameCycle]
    exact outcome_of_last shape valid (exePipeD_last single accepted)
      (.inr ⟨notMul, rfl⟩)

end Exe

/-- The memory stage passes a register write on and does nothing else. -/
structure MemStage.WritesBack
    (stage : MemStage)
    (exeToMem : ExeToMem)
    (rd : RegAddr)
    (value : Bus32) :
    Prop where
  valid : (stage.memToWbD exeToMem).valid = true
  writeEnable : (stage.memToWbD exeToMem).instr.writeEnable = true
  addrRd : (stage.memToWbD exeToMem).instr.addrRd = rd
  noStore : isStore exeToMem = false
  noLoad : isLoad exeToMem = false
  notTaken : (stage.memToWbD exeToMem).branchTaken = false
  result : (stage.memToWbD exeToMem).result = value

/-- The memory stage leaves the outcome of a register write alone. -/
theorem MemStage.writesBack_of_outcome
    {input : DecodeToExe}
    {output : ExeToMem}
    {rd : RegAddr}
    {value : Bus32}
    (stage : MemStage)
    (valid : input.valid = true)
    (computes : input.Computes rd value)
    (outcome : Exe.Outcome input output) :
    stage.WritesBack output rd value := by
  have isValid : output.valid = true := outcome.valid.trans valid
  have noStore : output.instr.storeToMem = false := by
    rw [outcome.instr]
    exact computes.storeToMem
  have wbOrigin : output.instr.wbOrigin = .alu := by
    rw [outcome.instr]
    exact computes.wbOrigin
  constructor
  · simp [memToWbD, validNoMem, isValid, noStore, wbOrigin]
  · simp only [memToWbD, outcome.instr]
    exact computes.writeEnable
  · simp only [memToWbD, outcome.instr]
    exact computes.addrRd
  · simp [isStore, noStore]
  · simp [isLoad, wbOrigin]
  · have notTaken : ¬output.branchTaken = true := by
      rw [outcome.branchTaken, computes.jumpKind]
      exact id
    simpa [memToWbD] using notTaken
  · simp only [memToWbD, wbResult, wbOrigin]
    exact outcome.result.trans computes.ownResult

/--
Every arithmetic instruction that enters execute with the operands its word
names leaves the memory stage as a write of its value to its destination, and
as nothing else.
-/
theorem arithmetic_result
    (instruction : Instruction)
    (pc : Bus32)
    (robIdx : RobIdx)
    (idDecode : Nat)
    (registers : Regfile)
    (hardwired : registers 0 = 0)
    (initial : Exe)
    (stimulus : Nat → DecodeToExe)
    (enters :
      stimulus 0 =
        DecodeToExe.ofRegfile pc instruction.encode robIdx idDecode
          registers)
    (accepted : initial.stall (stimulus 0) = false)
    (stage : MemStage) :
    stage.WritesBack
      ((Clocked.run Exe.clock initial stimulus
          (Exe.latency (stimulus 0))).exeToMemD
        (stimulus (Exe.latency (stimulus 0))))
      instruction.rd (instruction.result pc registers) := by
  have valid : (stimulus 0).valid = true := by
    rw [enters]
    rfl
  have shape : (stimulus 0).instr.Shape := by
    rw [enters]
    exact decoder_shape pc instruction.encode robIdx idDecode
  have computes :
      (stimulus 0).Computes instruction.rd
        (instruction.result pc registers) := by
    rw [enters]
    exact computes_encode pc robIdx idDecode registers instruction hardwired
  exact stage.writesBack_of_outcome valid computes
    (Exe.outcome_after_latency shape valid accepted)

/-- Register 1 holds minus eight, the others nothing. -/
def minusEight : Regfile :=
  fun register => if register = 1 then BitVec.ofInt 32 (-8) else 0

/-- `srai x5, x1, 2` gives minus two. -/
theorem arithmetic_result_srai :
    ((Core.withProgram []).datapath.mem.memToWbD
      (Exe.reset.exeToMemD
        (DecodeToExe.ofRegfile 0
          (Instruction.shiftImm .srai 5 1 2).encode 0 0
          minusEight))).result = BitVec.ofInt 32 (-2) := by
  have written := arithmetic_result (.shiftImm .srai 5 1 2) 0 0 0 minusEight
    (by decide) Exe.reset
    (fun _ =>
      DecodeToExe.ofRegfile 0 (Instruction.shiftImm .srai 5 1 2).encode 0 0
        minusEight)
    rfl (by decide +kernel) (Core.withProgram []).datapath.mem
  have singleCycle :
      Exe.latency
          (DecodeToExe.ofRegfile 0
            (Instruction.shiftImm .srai 5 1 2).encode 0 0 minusEight) =
        0 := by
    decide +kernel
  rw [singleCycle] at written
  exact written.result

end Tartaruga
