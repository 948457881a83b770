import Tartaruga.ExeOutcome

namespace Tartaruga

/-!
# Programs on registers

Instructions that neither load nor store, as the decoder sees them: what they
write back, which of their source fields they really read, and that nothing but
the labels of an instruction depends on where in the pipeline it is decoded.
-/

/-- An instruction under another program counter, index and identifier. -/
def InstrData.relabelled
    (data : InstrData)
    (pc : Bus32)
    (robIdx : RobIdx)
    (idDecode : Nat) :
    InstrData :=
  { data with pc := pc, robIdx := robIdx, kanataId := idDecode }

namespace InstrData

variable (data : InstrData) (pc : Bus32) (robIdx : RobIdx) (idDecode : Nat)

@[simp] theorem relabelled_pc :
    (data.relabelled pc robIdx idDecode).pc = pc :=
  rfl

@[simp] theorem relabelled_addrRs1 :
    (data.relabelled pc robIdx idDecode).addrRs1 = data.addrRs1 :=
  rfl

@[simp] theorem relabelled_addrRs2 :
    (data.relabelled pc robIdx idDecode).addrRs2 = data.addrRs2 :=
  rfl

@[simp] theorem relabelled_addrRd :
    (data.relabelled pc robIdx idDecode).addrRd = data.addrRd :=
  rfl

@[simp] theorem relabelled_writeEnable :
    (data.relabelled pc robIdx idDecode).writeEnable = data.writeEnable :=
  rfl

@[simp] theorem relabelled_wbOrigin :
    (data.relabelled pc robIdx idDecode).wbOrigin = data.wbOrigin :=
  rfl

@[simp] theorem relabelled_jumpKind :
    (data.relabelled pc robIdx idDecode).jumpKind = data.jumpKind :=
  rfl

@[simp] theorem relabelled_isMul :
    (data.relabelled pc robIdx idDecode).isMul = data.isMul :=
  rfl

end InstrData

namespace Decoder

variable (pc : Bus32) (robIdx : RobIdx) (idDecode : Nat) (instr : Bus32)
  (decoded : InstrData)

/-- Relabelling a choice relabels both sides. -/
theorem relabelled_ite
    {condition : Prop} [Decidable condition]
    {onTrue onFalse plainTrue plainFalse : InstrData}
    (sameTrue : onTrue = plainTrue.relabelled pc robIdx idDecode)
    (sameFalse : onFalse = plainFalse.relabelled pc robIdx idDecode) :
    (if condition then onTrue else onFalse) =
      (if condition then plainTrue else plainFalse).relabelled pc robIdx
        idDecode := by
  split
  · exact sameTrue
  · exact sameFalse

theorem opAluI_relabelled :
    opAluI instr (decoded.relabelled pc robIdx idDecode) =
      (opAluI instr decoded).relabelled pc robIdx idDecode := by
  simp only [opAluI]
  repeat' apply relabelled_ite
  all_goals rfl

theorem opAlu_relabelled :
    opAlu instr (decoded.relabelled pc robIdx idDecode) =
      (opAlu instr decoded).relabelled pc robIdx idDecode := by
  simp only [opAlu, aluNormalOnly]
  repeat' apply relabelled_ite
  all_goals rfl

theorem opcodeCase_relabelled :
    opcodeCase instr (decoded.relabelled pc robIdx idDecode) =
      (opcodeCase instr decoded).relabelled pc robIdx idDecode := by
  simp only [opcodeCase]
  refine relabelled_ite pc robIdx idDecode
    (opAluI_relabelled pc robIdx idDecode instr decoded)
    (relabelled_ite pc robIdx idDecode
      (opAlu_relabelled pc robIdx idDecode instr decoded) ?_)
  repeat' apply relabelled_ite
  all_goals rfl

theorem hardwireRs1_relabelled :
    hardwireRs1 instr (decoded.relabelled pc robIdx idDecode) =
      (hardwireRs1 instr decoded).relabelled pc robIdx idDecode :=
  relabelled_ite pc robIdx idDecode rfl rfl

theorem hardwireRs2_relabelled :
    hardwireRs2 instr (decoded.relabelled pc robIdx idDecode) =
      (hardwireRs2 instr decoded).relabelled pc robIdx idDecode :=
  relabelled_ite pc robIdx idDecode rfl rfl

end Decoder

/-- The decoder only passes the labels on. -/
theorem decoder_relabelled
    (pc instr : Bus32)
    (robIdx : RobIdx)
    (idDecode : Nat)
    (otherPc : Bus32) :
    decoder pc instr robIdx idDecode =
      (decoder otherPc instr 0 0).relabelled pc robIdx idDecode := by
  have defaults :
      Decoder.defaults pc instr robIdx idDecode =
        (Decoder.defaults otherPc instr 0 0).relabelled pc robIdx idDecode :=
    rfl
  rw [decoder, defaults, Decoder.opcodeCase_relabelled,
    Decoder.hardwireRs1_relabelled, Decoder.hardwireRs2_relabelled]
  rfl

/-- The instruction writes back a result of execute, or jumps and writes back
the address behind it. -/
structure InstrData.RegisterOnly (data : InstrData) : Prop where
  origin :
    data.wbOrigin = .alu ∨ data.wbOrigin = .pc4 ∧ data.jumpKind = .jump
  noStore : data.storeToMem = false

namespace Decoder

variable {instr : Bus32} {decoded : InstrData}

/-- A choice writes registers only if both sides do. -/
theorem registerOnly_ite
    {condition : Prop} [Decidable condition]
    {onTrue onFalse : InstrData}
    (onlyTrue : onTrue.RegisterOnly)
    (onlyFalse : onFalse.RegisterOnly) :
    (if condition then onTrue else onFalse).RegisterOnly := by
  split
  · exact onlyTrue
  · exact onlyFalse

theorem registerOnly_opAluI : (opAluI instr decoded).RegisterOnly := by
  simp only [opAluI]
  repeat' apply registerOnly_ite
  all_goals exact ⟨.inl rfl, rfl⟩

theorem registerOnly_opAlu : (opAlu instr decoded).RegisterOnly := by
  simp only [opAlu, aluNormalOnly]
  repeat' apply registerOnly_ite
  all_goals exact ⟨.inl rfl, rfl⟩

/-- Only the branches of loads and stores access memory. -/
theorem registerOnly_opcodeCase
    (noLoad : Word.opcode instr ≠ Opcode.lw)
    (noStore : Word.opcode instr ≠ Opcode.sw) :
    (opcodeCase instr decoded).RegisterOnly := by
  simp only [opcodeCase, if_neg noLoad, if_neg noStore]
  refine registerOnly_ite registerOnly_opAluI
    (registerOnly_ite registerOnly_opAlu ?_)
  repeat' apply registerOnly_ite
  all_goals first
    | exact ⟨.inl rfl, rfl⟩
    | exact ⟨.inr ⟨rfl, rfl⟩, rfl⟩

end Decoder

/-- A word that is neither a load nor a store writes registers only. -/
theorem decoder_registerOnly
    {instr : Bus32}
    (noLoad : Word.opcode instr ≠ Opcode.lw)
    (noStore : Word.opcode instr ≠ Opcode.sw)
    (pc : Bus32)
    (robIdx : RobIdx)
    (idDecode : Nat) :
    (decoder pc instr robIdx idDecode).RegisterOnly := by
  have only :
      (Decoder.opcodeCase instr
        (Decoder.defaults pc instr robIdx idDecode)).RegisterOnly :=
    Decoder.registerOnly_opcodeCase noLoad noStore
  have hardwired :
      (Decoder.hardwireRs1 instr (Decoder.opcodeCase instr
        (Decoder.defaults pc instr robIdx idDecode))).RegisterOnly :=
    Decoder.registerOnly_ite ⟨only.origin, only.noStore⟩ only
  exact
    Decoder.registerOnly_ite ⟨hardwired.origin, hardwired.noStore⟩ hardwired

/-- The branch compares its two operands. -/
def JumpKind.compares : JumpKind → Bool
  | .bnone | .jump => false
  | .bne | .beq | .blt | .bltu | .bge | .bgeu => true

/-- The first source field names an operand. -/
def InstrData.readsRs1 (data : InstrData) : Prop :=
  data.rs1OrPc = .rs1 ∨ data.jumpKind.compares = true

/-- The second source field names an operand. -/
def InstrData.readsRs2 (data : InstrData) : Prop :=
  data.rs2OrImm = .rs2 ∨ data.jumpKind.compares = true

instance (data : InstrData) : Decidable data.readsRs1 :=
  inferInstanceAs (Decidable (_ ∨ _))

instance (data : InstrData) : Decidable data.readsRs2 :=
  inferInstanceAs (Decidable (_ ∨ _))

/-- The last register is neither a source nor the destination. -/
def InstrData.AvoidsLast (data : InstrData) : Prop :=
  (data.readsRs1 → data.addrRs1 ≠ 31) ∧
    (data.readsRs2 → data.addrRs2 ≠ 31) ∧
    (data.writeEnable = true → data.addrRd ≠ 31)

/-- An instruction that works on the first thirty-one registers only. -/
def RegisterWord (instr : Bus32) : Prop :=
  Word.opcode instr ≠ Opcode.lw ∧ Word.opcode instr ≠ Opcode.sw ∧
    (decoder 0 instr 0 0).AvoidsLast

instance (data : InstrData) : Decidable data.AvoidsLast :=
  inferInstanceAs (Decidable ((_ → _) ∧ (_ → _) ∧ (_ → _)))

instance (instr : Bus32) : Decidable (RegisterWord instr) :=
  inferInstanceAs (Decidable (_ ∧ _ ∧ _))

/-- All words of the program are such instructions. -/
def RegisterProgram (word : Bus32 → Bus32) : Prop :=
  ∀ pc, RegisterWord (word pc)

namespace RegisterProgram

variable {word : Bus32 → Bus32} (program : RegisterProgram word)
  (pc : Bus32) (robIdx : RobIdx) (idDecode : Nat)
include program

theorem registerOnly : (decoder pc (word pc) robIdx idDecode).RegisterOnly :=
  decoder_registerOnly (program pc).1 (program pc).2.1 pc robIdx idDecode

theorem avoidsLast : (decoder pc (word pc) robIdx idDecode).AvoidsLast := by
  rw [decoder_relabelled pc (word pc) robIdx idDecode 0]
  exact (program pc).2.2

end RegisterProgram

namespace Exe

variable {input other : DecodeToExe}

/-- The inputs carry the same instruction with the same operands. -/
structure SameOperands (input other : DecodeToExe) : Prop where
  instr :
    ∃ robIdx idDecode,
      input.instr =
        other.instr.relabelled other.instr.pc robIdx idDecode
  immediate : input.immediate = other.immediate
  dataRs1 : other.instr.readsRs1 → input.dataRs1 = other.dataRs1
  dataRs2 : other.instr.readsRs2 → input.dataRs2 = other.dataRs2

/-- The units of execute see the same operands. -/
theorem SameOperands.aluData (same : SameOperands input other) :
    aluDataRs1 input = aluDataRs1 other ∧
      aluDataRs2 input = aluDataRs2 other := by
  obtain ⟨robIdx, idDecode, instr⟩ := same.instr
  constructor
  · simp only [aluDataRs1, instr, InstrData.relabelled]
    by_cases reads : other.instr.rs1OrPc = .rs1
    · rw [if_pos reads, if_pos reads, same.dataRs1 (.inl reads)]
    · rw [if_neg reads, if_neg reads]
  · simp only [aluDataRs2, instr, InstrData.relabelled]
    by_cases reads : other.instr.rs2OrImm = .rs2
    · rw [if_pos reads, if_pos reads, same.dataRs2 (.inl reads)]
    · rw [if_neg reads, if_neg reads, same.immediate]

/-- The arithmetic unit computes the same. -/
theorem SameOperands.resAlu (same : SameOperands input other) :
    resAlu input = resAlu other := by
  obtain ⟨robIdx, idDecode, instr⟩ := same.instr
  simp only [Exe.resAlu, same.aluData.1, same.aluData.2]
  rw [congrArg InstrData.aluOp instr]
  rfl

/-- The comparator decides the same. -/
theorem SameOperands.takenBranch (same : SameOperands input other) :
    takenBranch input = takenBranch other := by
  obtain ⟨robIdx, idDecode, instr⟩ := same.instr
  have sameKind : input.instr.jumpKind = other.instr.jumpKind := by
    rw [instr, InstrData.relabelled_jumpKind]
  cases compares : other.instr.jumpKind.compares with
  | true =>
      rw [Exe.takenBranch, same.dataRs1 (.inr compares),
        same.dataRs2 (.inr compares), sameKind]
      rfl
  | false =>
      simp only [Exe.takenBranch, sameKind]
      cases kind : other.instr.jumpKind <;>
        rw [kind] at compares <;>
        first
          | rfl
          | cases compares

end Exe

end Tartaruga
