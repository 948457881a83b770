import Tartaruga.ArithmeticDecoding
import Tartaruga.RiscvGrammar

namespace Tartaruga

/-!
# Decoding by opcode

What the decoder makes of loads, stores, control transfers and illegal words.
Loads, stores and indirect jumps are recognised by their opcode alone.
-/

open Rv32 (Mnemonic BranchCondition Instruction)

namespace Exe

/-- An instruction with a single execution stage leaves in the cycle in which
it is accepted. -/
theorem outcome_of_single
    {exe : Exe}
    {input : DecodeToExe}
    (shape : input.instr.Shape)
    (single : input.instr.exeStages = exeStagesDefault)
    (valid : input.valid = true)
    (accepted : exe.stall input = false) :
    Outcome input (exe.exeToMemD input) := by
  have sameCycle : latency input = 0 := by
    rw [latency, single]
    rfl
  have outcome :
      Outcome input
        ((Clocked.run clock exe (fun _ => input) (latency input)).exeToMemD
          input) :=
    @outcome_after_latency exe (fun _ => input) shape valid accepted
  rw [sameCycle] at outcome
  exact outcome

end Exe

namespace Decoder

variable {word : Bus32} (pc : Bus32) (robIdx : RobIdx) (idDecode : Nat)

/-- A load, decoded. -/
theorem decoder_lw (opcode : Word.opcode word = Opcode.lw) :
    decoder pc word robIdx idDecode =
      { defaults pc word robIdx idDecode with
        writeEnable := true
        rs2OrImm := .imm
        wbOrigin := .mem
        addrRs2 := 0 } := by
  simp [decoder, opcodeCase, hardwireRs1, hardwireRs2, defaults, opcode,
    Opcode.aluI, Opcode.alu, Opcode.lui, Opcode.auipc, Opcode.lw,
    Opcode.jal]

/-- A store, decoded. -/
theorem decoder_sw (opcode : Word.opcode word = Opcode.sw) :
    decoder pc word robIdx idDecode =
      { defaults pc word robIdx idDecode with
        rs2OrImm := .imm
        storeToMem := true } := by
  simp [decoder, opcodeCase, hardwireRs1, hardwireRs2, defaults, opcode,
    Opcode.aluI, Opcode.alu, Opcode.lui, Opcode.auipc, Opcode.lw,
    Opcode.sw, Opcode.jal]

/-- A branch, decoded.  Without a condition it reads no register. -/
theorem decoder_branch (opcode : Word.opcode word = Opcode.branch) :
    decoder pc word robIdx idDecode =
      { defaults pc word robIdx idDecode with
        rs1OrPc := .pc
        rs2OrImm := .imm
        jumpKind := branchKind (Word.func3 word)
        addrRs1 :=
          if branchKind (Word.func3 word) = .bnone then 0
          else Word.rs1 word
        addrRs2 :=
          if branchKind (Word.func3 word) = .bnone then 0
          else Word.rs2 word } := by
  by_cases noCondition : branchKind (Word.func3 word) = .bnone <;>
    simp [decoder, opcodeCase, hardwireRs1, hardwireRs2, defaults, opcode,
      noCondition, Opcode.aluI, Opcode.alu, Opcode.lui, Opcode.auipc,
      Opcode.lw, Opcode.sw, Opcode.branch, Opcode.jal]

/-- A direct jump, decoded. -/
theorem decoder_jal (opcode : Word.opcode word = Opcode.jal) :
    decoder pc word robIdx idDecode =
      { defaults pc word robIdx idDecode with
        writeEnable := true
        rs1OrPc := .pc
        rs2OrImm := .imm
        wbOrigin := .pc4
        jumpKind := .jump
        addrRs1 := 0
        addrRs2 := 0 } := by
  simp [decoder, opcodeCase, hardwireRs1, hardwireRs2, defaults, opcode,
    Opcode.aluI, Opcode.alu, Opcode.lui, Opcode.auipc, Opcode.lw,
    Opcode.sw, Opcode.branch, Opcode.jal]

/-- An indirect jump, decoded.  Its second source field belongs to the
immediate and is kept as a register all the same. -/
theorem decoder_jalr (opcode : Word.opcode word = Opcode.jalr) :
    decoder pc word robIdx idDecode =
      { defaults pc word robIdx idDecode with
        writeEnable := true
        rs2OrImm := .imm
        wbOrigin := .pc4
        jumpKind := .jump } := by
  simp [decoder, opcodeCase, hardwireRs1, hardwireRs2, defaults, opcode,
    Opcode.aluI, Opcode.alu, Opcode.lui, Opcode.auipc, Opcode.lw,
    Opcode.sw, Opcode.branch, Opcode.jal, Opcode.jalr]

end Decoder

section Encodings

variable {mnemonic : Mnemonic} {word : Bus32}

/-- The fields of a word that encodes an instruction. -/
theorem opcode_of_encodes (encodes : mnemonic.Encodes word) :
    Word.opcode word = mnemonic.pattern.opcode :=
  encodes.1

theorem func3_of_encodes
    {func3 : BitVec 3}
    (encodes : mnemonic.Encodes word)
    (fixed : mnemonic.pattern.funct3 = some func3) :
    Word.func3 word = func3 :=
  encodes.2.1 func3 fixed

theorem func7_of_encodes
    {func7 : BitVec 7}
    (encodes : mnemonic.Encodes word)
    (fixed : mnemonic.pattern.funct7 = some func7) :
    Word.func7 word = func7 :=
  encodes.2.2 func7 fixed

/-- The word of an arithmetic instruction encodes it. -/
theorem encodes_encode (instruction : Instruction) :
    instruction.mnemonic.Encodes instruction.encode := by
  cases instruction with
  | op operation rd rs1 rs2 =>
      refine ⟨Word.opcode_registerWord _ _ _ _ _ _, ?_, ?_⟩
      · rintro _ ⟨⟩
        exact Word.func3_registerWord _ _ _ _ _ _
      · rintro _ ⟨⟩
        exact Word.func7_registerWord _ _ _ _ _ _
  | opImm operation rd rs1 imm =>
      refine ⟨opcode_encode .i _ _, ?_, nofun⟩
      rintro _ ⟨⟩
      exact Word.func3_encode_i _ _
  | shiftImm operation rd rs1 shamt =>
      refine ⟨Word.opcode_registerWord _ _ _ _ _ _, ?_, ?_⟩
      · rintro _ ⟨⟩
        exact Word.func3_registerWord _ _ _ _ _ _
      · rintro _ ⟨⟩
        exact Word.func7_registerWord _ _ _ _ _ _
  | lui rd imm => exact ⟨opcode_encode .u _ _, nofun, nofun⟩
  | auipc rd imm => exact ⟨opcode_encode .u _ _, nofun, nofun⟩

/-- The branch condition of an encoded branch. -/
def jumpKindOf : BranchCondition → JumpKind
  | .beq => .beq
  | .bne => .bne
  | .blt => .blt
  | .bge => .bge
  | .bltu => .bltu
  | .bgeu => .bgeu

/-- The decoder finds the condition of a branch. -/
theorem branchKind_funct3 (condition : BranchCondition) :
    Decoder.branchKind condition.funct3 = jumpKindOf condition := by
  cases condition <;> decide

/-- The comparator evaluates the condition of a branch. -/
theorem holds_jumpKindOf
    (condition : BranchCondition)
    (left right : Bus32) :
    (jumpKindOf condition).Holds left right ↔ condition.Holds left right := by
  cases condition <;> exact Iff.rfl

end Encodings

end Tartaruga
