import Tartaruga.CoreRun
import Tartaruga.StrictEvaluation

namespace Tartaruga

/-!
# Strict evaluation of the core

How the registers of the core are brought to normal form, and cores that
power up with a given program.  Large read-only parts stay as they are: the
memory, and the contents and the replacement order of the instruction cache.
-/

instance : Strict AluOp :=
  .ofInverse AluOp.ctorIdx AluOp.ofNat (by rintro ⟨⟩ <;> rfl)

instance : Strict Rs1OrPc :=
  .ofInverse Rs1OrPc.ctorIdx Rs1OrPc.ofNat (by rintro ⟨⟩ <;> rfl)

instance : Strict Rs2OrImm :=
  .ofInverse Rs2OrImm.ctorIdx Rs2OrImm.ofNat (by rintro ⟨⟩ <;> rfl)

instance : Strict WbOrigin :=
  .ofInverse WbOrigin.ctorIdx WbOrigin.ofNat (by rintro ⟨⟩ <;> rfl)

instance : Strict JumpKind :=
  .ofInverse JumpKind.ctorIdx JumpKind.ofNat (by rintro ⟨⟩ <;> rfl)

instance : Strict DcacheState :=
  .ofInverse DcacheState.ctorIdx DcacheState.ofNat (by rintro ⟨⟩ <;> rfl)

instance : Strict InstrData :=
  .ofInverse
    (fun data =>
      (data.pc, data.instr, data.addrRs1, data.addrRs2, data.addrRd,
        data.writeEnable, data.rs1OrPc, data.rs2OrImm, data.aluOp,
        data.wbOrigin, data.storeToMem, data.jumpKind, data.exeStages,
        data.isMul, data.robIdx, data.kanataId))
    (fun (pc, instr, addrRs1, addrRs2, addrRd, writeEnable, rs1OrPc,
        rs2OrImm, aluOp, wbOrigin, storeToMem, jumpKind, exeStages, isMul,
        robIdx, kanataId) =>
      { pc, instr, addrRs1, addrRs2, addrRd, writeEnable, rs1OrPc, rs2OrImm,
        aluOp, wbOrigin, storeToMem, jumpKind, exeStages, isMul, robIdx,
        kanataId })
    (fun _ => rfl)

instance : Strict DecodeToExe :=
  .ofInverse
    (fun stage =>
      (stage.instr, stage.valid, stage.dataRs1, stage.dataRs2,
        stage.immediate))
    (fun (instr, valid, dataRs1, dataRs2, immediate) =>
      { instr, valid, dataRs1, dataRs2, immediate })
    (fun _ => rfl)

instance : Strict ExeToMem :=
  .ofInverse
    (fun stage =>
      (stage.instr, stage.valid, stage.dataRs2, stage.result,
        stage.branchTaken))
    (fun (instr, valid, dataRs2, result, branchTaken) =>
      { instr, valid, dataRs2, result, branchTaken })
    (fun _ => rfl)

instance : Strict MemToWb :=
  .ofInverse
    (fun stage =>
      (stage.instr, stage.valid, stage.result, stage.branchTaken,
        stage.branchedPc, stage.storeBufferIdx))
    (fun (instr, valid, result, branchTaken, branchedPc, storeBufferIdx) =>
      { instr, valid, result, branchTaken, branchedPc, storeBufferIdx })
    (fun _ => rfl)

instance : Strict RobEntry :=
  .ofInverse
    (fun entry =>
      (entry.valid, entry.completed, entry.pc, entry.instr, entry.addrRd,
        entry.writeEnable, entry.storeToMem, entry.result, entry.newPc,
        entry.branchTaken, entry.storeBufferIdx, entry.kanataId))
    (fun (valid, completed, pc, instr, addrRd, writeEnable, storeToMem,
        result, newPc, branchTaken, storeBufferIdx, kanataId) =>
      { valid, completed, pc, instr, addrRd, writeEnable, storeToMem, result,
        newPc, branchTaken, storeBufferIdx, kanataId })
    (fun _ => rfl)

instance : Strict Rob :=
  .ofInverse
    (fun rob => (rob.robQ, rob.headPtrQ, rob.tailPtrQ))
    (fun (robQ, headPtrQ, tailPtrQ) => { robQ, headPtrQ, tailPtrQ })
    (fun _ => rfl)

instance : Strict Exe :=
  .ofInverse
    (fun exe => (exe.exePipeQ, exe.delay))
    (fun (exePipeQ, delay) => { exePipeQ, delay })
    (fun _ => rfl)

instance : Strict StoreBufferEntry :=
  .ofInverse
    (fun entry =>
      (entry.data, entry.addr, entry.valid, entry.committed,
        entry.discarded))
    (fun (data, addr, valid, committed, discarded) =>
      { data, addr, valid, committed, discarded })
    (fun _ => rfl)

instance : Strict StoreBuffer :=
  .ofInverse
    (fun buffer =>
      (buffer.storeBufferQ, buffer.headPtrQ, buffer.tailPtrQ))
    (fun (storeBufferQ, headPtrQ, tailPtrQ) =>
      { storeBufferQ, headPtrQ, tailPtrQ })
    (fun _ => rfl)

instance : Strict MemRequest :=
  .ofInverse
    (fun request => (request.valid, request.addr, request.we, request.dataWr))
    (fun (valid, addr, we, dataWr) => { valid, addr, we, dataWr })
    (fun _ => rfl)

instance : Strict MemResponse :=
  .ofInverse
    (fun response => (response.valid, response.addr, response.dataLine))
    (fun (valid, addr, dataLine) => { valid, addr, dataLine })
    (fun _ => rfl)

instance : Strict DmemWrapper :=
  .ofInverse
    (fun wrapper => (wrapper.reqPipe, wrapper.rspPipe))
    (fun (reqPipe, rspPipe) => { reqPipe, rspPipe })
    (fun _ => rfl)

instance : Strict DcacheLine :=
  .ofInverse
    (fun line => (line.valid, line.tag, line.data))
    (fun (valid, tag, data) => { valid, tag, data })
    (fun _ => rfl)

instance : Strict Dcache :=
  .ofInverse
    (fun cache => (cache.state, cache.cacheMem))
    (fun (state, cacheMem) => { state, cacheMem })
    (fun _ => rfl)

instance : Strict MemStage where
  force stage use :=
    Strict.force (stage.storeBuffer, stage.dcache, stage.dmemWrapper)
      fun (storeBuffer, dcache, dmemWrapper) =>
        use { storeBuffer, dcache, dmemWrapper, memory := stage.memory }
  force_eq _ _ := by rw [Strict.force_eq]

instance : Strict Datapath :=
  .ofInverse
    (fun core =>
      (core.pcQ, core.kanataIdCounter, core.instructionQ, core.pcDecode,
        core.validDecode, core.idDecode, core.regfile, core.decodeToExeQ,
        core.exe, core.exeToMemQ, core.mem, core.memToWbQ, core.rob))
    (fun (pcQ, kanataIdCounter, instructionQ, pcDecode, validDecode, idDecode,
        regfile, decodeToExeQ, exe, exeToMemQ, mem, memToWbQ, rob) =>
      { pcQ, kanataIdCounter, instructionQ, pcDecode, validDecode, idDecode,
        regfile, decodeToExeQ, exe, exeToMemQ, mem, memToWbQ, rob })
    (fun _ => rfl)

instance : Strict InstrRequest :=
  .ofInverse
    (fun request => (request.valid, request.addr))
    (fun (valid, addr) => { valid, addr })
    (fun _ => rfl)

/-- The words of a line come from the memory and stay unevaluated. -/
instance : Strict InstrResponse where
  force response use :=
    Strict.force (response.valid, response.addr) fun (valid, addr) =>
      use { valid, addr, line := response.line }
  force_eq _ _ := by rw [Strict.force_eq]

instance : Strict ImemWrapper :=
  .ofInverse
    (fun wrapper => (wrapper.reqPipe, wrapper.rspPipe))
    (fun (reqPipe, rspPipe) => { reqPipe, rspPipe })
    (fun _ => rfl)

/-- The contents of the instruction cache stay unevaluated as well. -/
instance : Strict Icache where
  force cache use :=
    Strict.force cache.pendingReq fun pendingReq =>
      use { cache with pendingReq }
  force_eq cache use :=
    Strict.force_eq cache.pendingReq fun pendingReq =>
      use { cache with pendingReq }

instance : Strict Core :=
  .ofInverse
    (fun core => (core.datapath, core.icache, core.imemWrapper))
    (fun (datapath, icache, imemWrapper) =>
      { datapath, icache, imemWrapper })
    (fun _ => rfl)

/-- The memory that holds a program from address zero on, with `addi x0, x0, 0`
behind it. -/
def Memory.holding (program : List Bus32) : Memory :=
  fun index => program.getD index.toNat 0x00000013

/-- A core that powers up with cleared registers and a program in memory. -/
def Core.withProgram (program : List Bus32) : Core where
  datapath := {
    pcQ := 0
    kanataIdCounter := 0
    instructionQ := 0
    pcDecode := 0
    validDecode := false
    idDecode := 0
    regfile := fun _ => 0
    decodeToExeQ := .zero
    exe := .reset
    exeToMemQ := .zero
    mem := {
      storeBuffer := .reset
      dcache := .reset
      dmemWrapper := { reqPipe := fun _ => default, rspPipe := fun _ => default }
      memory := .holding program
    }
    memToWbQ := .zero
    rob := { robQ := fun _ => .zero, headPtrQ := 0, tailPtrQ := 0 }
  }
  icache := .reset
  imemWrapper := .reset

/-- What is observed with forced states is what is true of the run. -/
theorem Core.observe_run
    {Result : Type}
    (powerUp : Core)
    (observation : Core → Result)
    (cycle : Nat) :
    observation (powerUp.run cycle) =
      Strict.observe Core.clock observation cycle powerUp.reset := by
  rw [Strict.observe_eq, Core.run_eq_iterate]

/-- Events collected with forced states are those of the run. -/
theorem Core.collect_run
    {Event : Type}
    (powerUp : Core)
    (emit : Core → Option Event)
    (cycles : Nat) :
    Clocked.collect (fun cycle => emit (powerUp.run cycle)) cycles =
      Strict.collect Core.clock emit cycles powerUp.reset := by
  simp only [Strict.collect_eq, Core.run_eq_iterate]

/-- A check passed with forced states holds in every cycle it covers. -/
theorem Core.check_run
    {powerUp : Core}
    {check : Core → Bool}
    {cycles : Nat}
    (passed : Strict.always Core.clock check cycles powerUp.reset = true)
    {cycle : Nat}
    (covered : cycle ≤ cycles) :
    check (powerUp.run cycle) = true := by
  rw [Core.run_eq_iterate]
  exact Strict.check_of_always passed covered

end Tartaruga
