import Tartaruga.OpcodeDecoding

namespace Tartaruga

/-!
# Control transfers

From the word of a branch or jump to what the memory stage hands to
write-back: the condition is evaluated by the comparator, the destination by
the arithmetic unit, and the link by the last multiplexer.  Nobody clears bit 0
of the destination of an indirect jump.
-/

open Rv32 (Transfer Mnemonic)

/-- What decode hands to execute for a control transfer. -/
structure DecodeToExe.Transfers
    (input : DecodeToExe)
    (transfer : Transfer)
    (word : Bus32)
    (registers : Regfile)
    (sum : Bus32) :
    Prop where
  valid : input.valid = true
  single : input.instr.exeStages = exeStagesDefault
  taken :
    input.instr.jumpKind.Holds input.dataRs1 input.dataRs2 ↔
      transfer.Taken (registers (Word.rs1 word)) (registers (Word.rs2 word))
  ownResult : Exe.ownResult input = sum
  addrRd : input.instr.addrRd = Word.rd word
  writeEnable : input.instr.writeEnable = transfer.links
  storeToMem : input.instr.storeToMem = false
  wbOrigin : input.instr.wbOrigin = if transfer.links then .pc4 else .alu

/-- What the memory stage has to hand to write-back for a control transfer. -/
structure MemStage.CarriesOut
    (stage : MemStage)
    (exeToMem : ExeToMem)
    (transfer : Transfer)
    (word pc : Bus32)
    (registers : Regfile) :
    Prop where
  valid : (stage.memToWbD exeToMem).valid = true
  branchTaken :
    (stage.memToWbD exeToMem).branchTaken = true ↔
      transfer.Taken (registers (Word.rs1 word)) (registers (Word.rs2 word))
  branchedPc :
    transfer.Taken (registers (Word.rs1 word)) (registers (Word.rs2 word)) →
      (stage.memToWbD exeToMem).branchedPc =
        transfer.target pc (registers (Word.rs1 word)) (immediate word)
  writeEnable :
    (stage.memToWbD exeToMem).instr.writeEnable = transfer.links
  link :
    transfer.links = true →
      (stage.memToWbD exeToMem).instr.addrRd = Word.rd word ∧
        (stage.memToWbD exeToMem).result = pc + 4
  noLoad : isLoad exeToMem = false
  noStore : isStore exeToMem = false

section Decoded

variable {word : Bus32} (pc : Bus32) (robIdx : RobIdx) (idDecode : Nat)
  (registers : Regfile)

/-- Branches add the immediate to the program counter. -/
theorem transfers_branch
    {condition : Rv32.BranchCondition}
    (encodes : (Mnemonic.transfer (.branch condition)).Encodes word) :
    (DecodeToExe.ofRegfile pc word robIdx idDecode registers).Transfers
      (.branch condition) word registers (pc + immediate word) := by
  have func3 := func3_of_encodes encodes rfl
  have hasCondition : jumpKindOf condition ≠ .bnone := by
    cases condition <;> decide
  have decoded := Decoder.decoder_branch pc robIdx idDecode
    (opcode_of_encodes encodes)
  rw [func3, branchKind_funct3] at decoded
  simp only [if_neg hasCondition] at decoded
  simp only [DecodeToExe.ofRegfile, decoded]
  exact ⟨rfl, rfl, holds_jumpKindOf condition _ _, rfl, rfl, rfl, rfl, rfl⟩

/-- Direct jumps add the immediate to the program counter. -/
theorem transfers_jal
    (encodes : (Mnemonic.transfer .jal).Encodes word) :
    (DecodeToExe.ofRegfile pc word robIdx idDecode registers).Transfers
      .jal word registers (pc + immediate word) := by
  simp only [DecodeToExe.ofRegfile,
    Decoder.decoder_jal pc robIdx idDecode (opcode_of_encodes encodes)]
  exact ⟨rfl, rfl, Iff.rfl, rfl, rfl, rfl, rfl, rfl⟩

/-- Indirect jumps add the immediate to a register. -/
theorem transfers_jalr
    (encodes : (Mnemonic.transfer .jalr).Encodes word) :
    (DecodeToExe.ofRegfile pc word robIdx idDecode registers).Transfers
      .jalr word registers
      (registers (Word.rs1 word) + immediate word) := by
  simp only [DecodeToExe.ofRegfile,
    Decoder.decoder_jalr pc robIdx idDecode (opcode_of_encodes encodes)]
  exact ⟨rfl, rfl, Iff.rfl, rfl, rfl, rfl, rfl, rfl⟩

end Decoded

/-- The transfer is carried out if the sum formed by the arithmetic unit is
the destination. -/
theorem MemStage.carriesOut_iff
    {input : DecodeToExe}
    {output : ExeToMem}
    {transfer : Transfer}
    {word sum : Bus32}
    {registers : Regfile}
    (stage : MemStage)
    (transfers : input.Transfers transfer word registers sum)
    (outcome : Exe.Outcome input output) :
    stage.CarriesOut output transfer word input.instr.pc registers ↔
      (transfer.Taken (registers (Word.rs1 word))
          (registers (Word.rs2 word)) →
        sum =
          transfer.target input.instr.pc (registers (Word.rs1 word))
            (immediate word)) := by
  have isValid : output.valid = true := outcome.valid.trans transfers.valid
  have noStore : output.instr.storeToMem = false := by
    rw [outcome.instr]
    exact transfers.storeToMem
  have wbOrigin :
      output.instr.wbOrigin = if transfer.links then .pc4 else .alu := by
    rw [outcome.instr]
    exact transfers.wbOrigin
  have notLoad : output.instr.wbOrigin ≠ .mem := by
    rw [wbOrigin]
    split <;> exact nofun
  have taken := outcome.branchTaken.trans transfers.taken
  have branchedPc (isTaken : output.branchTaken = true) :
      (stage.memToWbD output).branchedPc = sum := by
    simp only [memToWbD, if_pos isTaken]
    exact outcome.result.trans transfers.ownResult
  constructor
  · intro carriesOut isTaken
    rw [← carriesOut.branchedPc isTaken]
    exact (branchedPc (taken.mpr isTaken)).symm
  · intro destination
    constructor
    · simp [memToWbD, validNoMem, isValid, noStore, notLoad]
    · exact taken
    · intro isTaken
      exact (branchedPc (taken.mpr isTaken)).trans (destination isTaken)
    · exact (congrArg InstrData.writeEnable outcome.instr).trans
        transfers.writeEnable
    · intro links
      constructor
      · exact (congrArg InstrData.addrRd outcome.instr).trans
          transfers.addrRd
      · rw [links, if_pos rfl, outcome.instr] at wbOrigin
        simp only [memToWbD, wbResult, outcome.instr, wbOrigin]
    · simp [isLoad, notLoad]
    · simp [isStore, noStore]

/--
A control transfer that execute accepts leaves the memory stage with the
condition, the destination and the link that the instruction set gives it,
exactly when it is not an indirect jump to an odd sum.
-/
theorem transfer_carriedOut_iff
    (transfer : Transfer)
    (word : Bus32)
    (encodes : (Mnemonic.transfer transfer).Encodes word)
    (pc : Bus32)
    (robIdx : RobIdx)
    (idDecode : Nat)
    (registers : Regfile)
    (exe : Exe)
    (accepted :
      exe.stall (.ofRegfile pc word robIdx idDecode registers) = false)
    (stage : MemStage) :
    stage.CarriesOut
        (exe.exeToMemD (.ofRegfile pc word robIdx idDecode registers))
        transfer word pc registers ↔
      (transfer = .jalr →
        (registers (Word.rs1 word) + immediate word).getLsbD 0 = false) := by
  have carriesOut_iff
      {sum : Bus32}
      (transfers :
        (DecodeToExe.ofRegfile pc word robIdx idDecode
          registers).Transfers transfer word registers sum) :
      stage.CarriesOut
          (exe.exeToMemD (.ofRegfile pc word robIdx idDecode registers))
          transfer word pc registers ↔
        (transfer.Taken (registers (Word.rs1 word))
            (registers (Word.rs2 word)) →
          sum =
            transfer.target pc (registers (Word.rs1 word))
              (immediate word)) := by
    have outcome := Exe.outcome_of_single
      (decoder_shape pc word robIdx idDecode) transfers.single
      transfers.valid accepted
    have carriesOut := stage.carriesOut_iff transfers outcome
    rw [DecodeToExe.ofRegfile, decoder_pc] at carriesOut
    exact carriesOut
  cases transfer with
  | branch condition =>
      rw [carriesOut_iff
        (transfers_branch pc robIdx idDecode registers encodes)]
      refine ⟨fun _ isJalr => ?_, fun _ _ => rfl⟩
      cases isJalr
  | jal =>
      rw [carriesOut_iff
        (transfers_jal pc robIdx idDecode registers encodes)]
      refine ⟨fun _ isJalr => ?_, fun _ _ => rfl⟩
      cases isJalr
  | jalr =>
      rw [carriesOut_iff
        (transfers_jalr pc robIdx idDecode registers encodes)]
      rw [← Transfer.target_jalr_iff pc]
      exact ⟨fun destination _ => (destination trivial).symm,
        fun destination _ => (destination rfl).symm⟩

/-- `jalr x1, 5(x2)` goes to address 104 when x2 holds 99, and leaves 20 in x1
when it stands at address 16. -/
theorem transfer_carriedOut_iff_evenJump :
    let output :=
      Exe.reset.exeToMemD
        (.ofRegfile 16 0x005100e7 0 0 (Function.update (fun _ => 0) 2 99))
    let stage := (Core.withProgram []).datapath.mem
    stage.CarriesOut output .jalr 0x005100e7 16
        (Function.update (fun _ => 0) 2 99) ∧
      (stage.memToWbD output).branchedPc = 104 ∧
      (stage.memToWbD output).result = 20 := by
  intro output stage
  have evenSum :
      (Function.update (fun _ => (0 : Bus32)) (2 : RegAddr) 99
          (Word.rs1 0x005100e7) + immediate 0x005100e7).getLsbD 0 =
        false := by
    decide
  have carriedOut :
      stage.CarriesOut output .jalr 0x005100e7 16
        (Function.update (fun _ => 0) 2 99) :=
    (transfer_carriedOut_iff .jalr 0x005100e7 (by decide) 16 0 0
      (Function.update (fun _ => 0) 2 99) Exe.reset (by decide +kernel)
      stage).mpr fun _ => evenSum
  exact ⟨carriedOut, by decide +kernel, by decide +kernel⟩

/-- `jalr x0, 1(x0)` goes to the odd address. -/
theorem oddJump_not_carriedOut :
    ¬∀ (transfer : Transfer) (word : Bus32),
      (Mnemonic.transfer transfer).Encodes word →
        ∀ (pc : Bus32) (robIdx : RobIdx) (idDecode : Nat)
          (registers : Regfile) (exe : Exe),
          exe.stall (.ofRegfile pc word robIdx idDecode registers) =
              false →
            ∀ stage : MemStage,
              stage.CarriesOut
                (exe.exeToMemD
                  (.ofRegfile pc word robIdx idDecode registers))
                transfer word pc registers := by
  intro carriesOut
  have branchedPc :=
    (carriesOut .jalr 0x00100067 (by decide) 0 0 0 (fun _ => 0) Exe.reset
      (by decide +kernel) (Core.withProgram []).datapath.mem).branchedPc
      trivial
  revert branchedPc
  decide +kernel

end Tartaruga
