import Tartaruga.OpcodeDecoding

namespace Tartaruga

/-!
# Unsupported words

An illegal instruction is treated as an instruction that does nothing.  The
arithmetic and branch opcodes check the minor opcode and the modifier; loads,
stores and indirect jumps check neither.
-/

open Rv32 (Mnemonic Transfer Unsupported)

/-- The control fields of an instruction that does nothing. -/
structure InstrData.Inert (data : InstrData) : Prop where
  writeEnable : data.writeEnable = false
  noLoad : data.wbOrigin ≠ .mem
  noStore : data.storeToMem = false
  noJump : data.jumpKind = .bnone
  single : data.exeStages = exeStagesDefault

namespace Decoder

variable {word : Bus32} {decoded : InstrData}

/-- A choice whose condition cannot hold. -/
theorem inert_ite
    {condition : Prop} [Decidable condition]
    {onTrue onFalse : InstrData}
    (inertTrue : condition → onTrue.Inert)
    (inertFalse : ¬condition → onFalse.Inert) :
    (if condition then onTrue else onFalse).Inert := by
  split
  case isTrue holds => exact inertTrue holds
  case isFalse fails => exact inertFalse fails

/-- An illegal instruction does nothing, if the jump kind has been set. -/
theorem inert_illegal
    (noJump : decoded.jumpKind = .bnone)
    (single : decoded.exeStages = exeStagesDefault) :
    (illegal decoded).Inert :=
  ⟨rfl, nofun, rfl, noJump, single⟩

/-- No immediate arithmetic outside the subset does anything. -/
theorem inert_opAluI
    (unsupported : Unsupported word)
    (opcode : Word.opcode word = Opcode.aluI)
    (fresh : Fresh decoded) :
    (opAluI word decoded).Inert := by
  have immediate (operation) :
      Word.func3 word ≠
        Rv32.Operation.funct3
          (Rv32.ImmediateOperation.operation operation) := by
    intro func3
    refine unsupported (.opImm operation) ⟨opcode, ?_, nofun⟩
    rintro _ ⟨⟩
    exact func3
  have shift (operation) :
      Word.func3 word =
          Rv32.Operation.funct3
            (Rv32.ShiftOperation.operation operation) →
        Word.func7 word ≠
          Rv32.Operation.funct7
            (Rv32.ShiftOperation.operation operation) := by
    intro func3 func7
    refine unsupported (.shiftImm operation) ⟨opcode, ?_, ?_⟩
    · rintro _ ⟨⟩
      exact func3
    · rintro _ ⟨⟩
      exact func7
  unfold opAluI
  extract_lets branch func3 func7
  have illegal : (illegal branch).Inert :=
    inert_illegal rfl fresh.exeStages
  refine inert_ite (fun same => (immediate .addi same).elim) fun _ => ?_
  refine inert_ite (fun same => (immediate .slti same).elim) fun _ => ?_
  refine inert_ite (fun same => (immediate .sltiu same).elim) fun _ => ?_
  refine inert_ite (fun same => (immediate .xori same).elim) fun _ => ?_
  refine inert_ite (fun same => (immediate .ori same).elim) fun _ => ?_
  refine inert_ite (fun same => (immediate .andi same).elim) fun _ => ?_
  refine inert_ite (fun left => ?_) fun _ => ?_
  · exact inert_ite (fun normal => (shift .slli left normal).elim)
      fun _ => illegal
  refine inert_ite (fun right => ?_) fun _ => illegal
  refine inert_ite (fun normal => (shift .srli right normal).elim)
    fun _ => ?_
  exact inert_ite (fun modified => (shift .srai right modified).elim)
    fun _ => illegal

/-- No register arithmetic outside the subset does anything. -/
theorem inert_opAlu
    (unsupported : Unsupported word)
    (opcode : Word.opcode word = Opcode.alu)
    (fresh : Fresh decoded) :
    (opAlu word decoded).Inert := by
  have unknown (operation : Rv32.Operation) :
      Word.func3 word = operation.funct3 →
        Word.func7 word ≠ operation.funct7 := by
    intro func3 func7
    refine unsupported (.op operation) ⟨opcode, ?_, ?_⟩
    · rintro _ ⟨⟩
      exact func3
    · rintro _ ⟨⟩
      exact func7
  unfold opAlu aluNormalOnly
  extract_lets branch func3 func7
  have illegal : (illegal branch).Inert :=
    inert_illegal rfl fresh.exeStages
  have normalOnly (operation : Rv32.Operation) (op : AluOp)
      (minor : Word.func3 word = operation.funct3)
      (normal : operation.funct7 = Funct7.aluNormal) :
      (if Word.func7 word = Funct7.aluNormal then
          { branch with aluOp := op }
        else Decoder.illegal branch).Inert :=
    inert_ite
      (fun same => (unknown operation minor (same.trans normal.symm)).elim)
      fun _ => illegal
  refine inert_ite (fun minor => ?_) fun _ => ?_
  · refine inert_ite (fun normal => (unknown .add minor normal).elim)
      fun _ => ?_
    refine inert_ite (fun modified => (unknown .sub minor modified).elim)
      fun _ => ?_
    exact inert_ite (fun mul => (unknown .mul minor mul).elim)
      fun _ => illegal
  refine inert_ite (fun minor => normalOnly .sll _ minor rfl) fun _ => ?_
  refine inert_ite (fun minor => normalOnly .slt _ minor rfl) fun _ => ?_
  refine inert_ite (fun minor => normalOnly .sltu _ minor rfl) fun _ => ?_
  refine inert_ite (fun minor => normalOnly .xor _ minor rfl) fun _ => ?_
  refine inert_ite (fun minor => ?_) fun _ => ?_
  · refine inert_ite (fun normal => (unknown .srl minor normal).elim)
      fun _ => ?_
    exact inert_ite (fun modified => (unknown .sra minor modified).elim)
      fun _ => illegal
  refine inert_ite (fun minor => normalOnly .or _ minor rfl) fun _ => ?_
  exact inert_ite (fun minor => normalOnly .and _ minor rfl)
    fun _ => illegal

/-- A branch without a condition is not in the subset. -/
theorem branchKind_unsupported
    (unsupported : Unsupported word)
    (opcode : Word.opcode word = Opcode.branch) :
    branchKind (Word.func3 word) = .bnone := by
  have unknown (condition : Rv32.BranchCondition) :
      Word.func3 word ≠ condition.funct3 := by
    intro func3
    refine unsupported (.transfer (.branch condition)) ⟨opcode, ?_, nofun⟩
    rintro _ ⟨⟩
    exact func3
  have notBeq : Word.func3 word ≠ Funct3.beq := unknown .beq
  have notBne : Word.func3 word ≠ Funct3.bne := unknown .bne
  have notBlt : Word.func3 word ≠ Funct3.blt := unknown .blt
  have notBge : Word.func3 word ≠ Funct3.bge := unknown .bge
  have notBltu : Word.func3 word ≠ Funct3.bltu := unknown .bltu
  have notBgeu : Word.func3 word ≠ Funct3.bgeu := unknown .bgeu
  simp only [branchKind, notBeq, notBne, notBlt, notBge, notBltu, notBgeu,
    ↓reduceIte]

/-- The case on the opcode leaves nothing to do for a word outside the subset,
unless it is taken for a load, a store or an indirect jump. -/
theorem inert_opcodeCase
    (unsupported : Unsupported word)
    (fresh : Fresh decoded)
    (notLw : Word.opcode word ≠ Opcode.lw)
    (notSw : Word.opcode word ≠ Opcode.sw)
    (notJalr : Word.opcode word ≠ Opcode.jalr) :
    (opcodeCase word decoded).Inert := by
  have notLui : Word.opcode word ≠ Opcode.lui :=
    fun opcode => unsupported .lui ⟨opcode, nofun, nofun⟩
  have notAuipc : Word.opcode word ≠ Opcode.auipc :=
    fun opcode => unsupported .auipc ⟨opcode, nofun, nofun⟩
  have notJal : Word.opcode word ≠ Opcode.jal :=
    fun opcode => unsupported (.transfer .jal) ⟨opcode, nofun, nofun⟩
  unfold opcodeCase
  extract_lets opcode fallback
  refine inert_ite (fun aluI => inert_opAluI unsupported aluI fresh)
    fun _ => ?_
  refine inert_ite (fun alu => inert_opAlu unsupported alu fresh)
    fun _ => ?_
  refine inert_ite (fun lui => (notLui lui).elim) fun _ => ?_
  refine inert_ite (fun auipc => (notAuipc auipc).elim) fun _ => ?_
  refine inert_ite (fun lw => (notLw lw).elim) fun _ => ?_
  refine inert_ite (fun sw => (notSw sw).elim) fun _ => ?_
  refine inert_ite (fun branch => ?_) fun _ => ?_
  · exact ⟨rfl, nofun, rfl, branchKind_unsupported unsupported branch,
      fresh.exeStages⟩
  refine inert_ite (fun jal => (notJal jal).elim) fun _ => ?_
  refine inert_ite (fun jalr => (notJalr jalr).elim) fun _ => ?_
  exact ⟨rfl, nofun, rfl, rfl, fresh.exeStages⟩

/-- Hardwiring the sources touches none of the control fields. -/
theorem inert_hardwire
    (inert : decoded.Inert) :
    (hardwireRs2 word (hardwireRs1 word decoded)).Inert := by
  obtain ⟨writeEnable, noLoad, noStore, noJump, single⟩ := inert
  have first : (hardwireRs1 word decoded).Inert :=
    inert_ite (fun _ => ⟨writeEnable, noLoad, noStore, noJump, single⟩)
      fun _ => ⟨writeEnable, noLoad, noStore, noJump, single⟩
  obtain ⟨writeEnable, noLoad, noStore, noJump, single⟩ := first
  exact inert_ite (fun _ => ⟨writeEnable, noLoad, noStore, noJump, single⟩)
    fun _ => ⟨writeEnable, noLoad, noStore, noJump, single⟩

/-- A word outside the subset does nothing, unless its opcode is that of a
load, a store or an indirect jump. -/
theorem decoder_unsupported
    (unsupported : Unsupported word)
    (notLw : Word.opcode word ≠ Opcode.lw)
    (notSw : Word.opcode word ≠ Opcode.sw)
    (notJalr : Word.opcode word ≠ Opcode.jalr)
    (pc : Bus32)
    (robIdx : RobIdx)
    (idDecode : Nat) :
    (decoder pc word robIdx idDecode).Inert :=
  inert_hardwire
    (inert_opcodeCase unsupported ⟨rfl, rfl⟩ notLw notSw notJalr)

end Decoder

/-- The memory stage makes nothing of an instruction: no register write, no
access to the memory and no taken branch. -/
structure MemStage.Nop (stage : MemStage) (exeToMem : ExeToMem) : Prop where
  writeEnable : (stage.memToWbD exeToMem).instr.writeEnable = false
  noLoad : isLoad exeToMem = false
  noStore : isStore exeToMem = false
  notTaken : (stage.memToWbD exeToMem).branchTaken = false

namespace MemStage

variable {input : DecodeToExe} {output : ExeToMem} {stage : MemStage}

/-- An inert instruction comes to nothing. -/
theorem nop_of_inert
    (inert : input.instr.Inert)
    (outcome : Exe.Outcome input output) :
    stage.Nop output := by
  constructor
  · exact (congrArg InstrData.writeEnable outcome.instr).trans
      inert.writeEnable
  · simp [isLoad, outcome.instr, inert.noLoad]
  · simp [isStore, outcome.instr, inert.noStore]
  · have notTaken : ¬output.branchTaken = true := by
      rw [outcome.branchTaken, inert.noJump]
      exact id
    simpa [memToWbD] using notTaken

/-- An instruction that comes to nothing was none of these. -/
theorem Nop.instr
    (nop : stage.Nop output)
    (outcome : Exe.Outcome input output)
    (valid : input.valid = true) :
    input.instr.writeEnable = false ∧ input.instr.storeToMem = false := by
  constructor
  · exact (congrArg InstrData.writeEnable outcome.instr).symm.trans
      nop.writeEnable
  · have noStore := nop.noStore
    simpa [isStore, outcome.instr, outcome.valid, valid] using noStore

end MemStage

/--
A word that encodes no instruction of the subset passes through execute and
the memory stage without any effect, whatever the registers hold, exactly when
its opcode is not that of a load, a store or an indirect jump.
-/
theorem unsupported_nop_iff
    (word : Bus32)
    (unsupported : Unsupported word)
    (pc : Bus32)
    (robIdx : RobIdx)
    (idDecode : Nat)
    (registers : Regfile)
    (exe : Exe)
    (accepted :
      exe.stall (.ofRegfile pc word robIdx idDecode registers) = false)
    (stage : MemStage) :
    stage.Nop
        (exe.exeToMemD (.ofRegfile pc word robIdx idDecode registers)) ↔
      Word.opcode word ≠ Opcode.lw ∧ Word.opcode word ≠ Opcode.sw ∧
        Word.opcode word ≠ Opcode.jalr := by
  have outcome
      (single :
        (decoder pc word robIdx idDecode).exeStages = exeStagesDefault) :
      Exe.Outcome (.ofRegfile pc word robIdx idDecode registers)
        (exe.exeToMemD (.ofRegfile pc word robIdx idDecode registers)) :=
    Exe.outcome_of_single (decoder_shape pc word robIdx idDecode) single rfl
      accepted
  constructor
  · intro nop
    refine ⟨?_, ?_, ?_⟩
    · intro opcode
      have decoded := Decoder.decoder_lw pc robIdx idDecode opcode
      have silent :=
        nop.instr (outcome (congrArg InstrData.exeStages decoded)) rfl
      rw [DecodeToExe.ofRegfile, decoded] at silent
      cases silent.1
    · intro opcode
      have decoded := Decoder.decoder_sw pc robIdx idDecode opcode
      have silent :=
        nop.instr (outcome (congrArg InstrData.exeStages decoded)) rfl
      rw [DecodeToExe.ofRegfile, decoded] at silent
      cases silent.2
    · intro opcode
      have decoded := Decoder.decoder_jalr pc robIdx idDecode opcode
      have silent :=
        nop.instr (outcome (congrArg InstrData.exeStages decoded)) rfl
      rw [DecodeToExe.ofRegfile, decoded] at silent
      cases silent.1
  · rintro ⟨notLw, notSw, notJalr⟩
    have inert := Decoder.decoder_unsupported unsupported notLw notSw
      notJalr pc robIdx idDecode
    exact MemStage.nop_of_inert inert (outcome inert.single)

/-- `slli x5, x6, 3` with a bit of func7 set does nothing. -/
theorem unsupported_nop_iff_shift :
    MemStage.Nop (Core.withProgram []).datapath.mem
      (Exe.reset.exeToMemD
        (.ofRegfile 64 0x02331293 2 9 fun register => register.setWidth 32)) :=
  (unsupported_nop_iff 0x02331293 (by decide) 64 2 9
    (fun register => register.setWidth 32) Exe.reset (by decide +kernel)
    _).mpr (by decide)

/-- `lb x5, 0(x0)` is executed as a load of the word. -/
theorem loadByte_not_nop :
    ¬∀ (word : Bus32),
      Unsupported word →
        ∀ (pc : Bus32) (robIdx : RobIdx) (idDecode : Nat)
          (registers : Regfile) (exe : Exe),
          exe.stall (.ofRegfile pc word robIdx idDecode registers) =
              false →
            ∀ stage : MemStage,
              stage.Nop
                (exe.exeToMemD
                  (.ofRegfile pc word robIdx idDecode registers)) := by
  intro silent
  have nop := silent 0x00000283 (by decide) 0 0 0 (fun _ => 0) Exe.reset
    (by decide +kernel) (Core.withProgram []).datapath.mem
  have noLoad := nop.noLoad
  revert noLoad
  decide +kernel

end Tartaruga
