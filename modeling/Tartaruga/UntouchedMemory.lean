import Tartaruga.RegisterPipeline

namespace Tartaruga

/-!
# The memory under programs on registers

Nothing asks the data cache, nothing is in the store buffer, and no request is
on its way to the memory: its words stay what they were when the core was
reset, and fetch reads nothing else.
-/

namespace MemStage

variable {stage : MemStage} {exeToMem : ExeToMem} {memory : Memory}

/-- No access to the memory has been started, and it holds these words. -/
structure Untouched (stage : MemStage) (memory : Memory) : Prop where
  buffer :
    ∀ slot, (stage.storeBuffer.storeBufferQ slot).valid = false
  cache : stage.dcache.state = .idle
  requests :
    ∀ position, (stage.dmemWrapper.reqPipe position).valid = false
  words : stage.memory = memory

/-- Nothing has been started after reset. -/
theorem untouched_reset (stage : MemStage) :
    stage.reset.Untouched stage.memory where
  buffer _ := rfl
  cache := rfl
  requests _ := rfl
  words := rfl

variable (untouched : stage.Untouched memory)
include untouched

/-- The store buffer presents nothing. -/
theorem Untouched.sbRspValid : stage.sbRspValid = false := by
  simp [MemStage.sbRspValid, StoreBuffer.rspValid, StoreBuffer.headEntry,
    untouched.buffer]

variable (noLoad : isLoad exeToMem = false)
include noLoad

/-- The data cache is not asked. -/
theorem Untouched.dcacheRequest :
    (stage.dcacheRequest exeToMem).valid = false := by
  simp [MemStage.dcacheRequest, noLoad, untouched.sbRspValid]

/-- The memory is not asked. -/
theorem Untouched.dmemRequest : (stage.dmemRequest exeToMem).valid = false := by
  simp [MemStage.dmemRequest, Dcache.memReq, untouched.cache,
    untouched.dcacheRequest noLoad]

/-- A cycle without a load or a store starts no access. -/
theorem Untouched.clock
    (noStore : isStore exeToMem = false)
    (input : MemInput) :
    (stage.clock exeToMem input).Untouched memory where
  buffer slot := by
    have empty : stage.storeBuffer.inserts
        (stage.storeBufferInput exeToMem input) = false := by
      simp [StoreBuffer.inserts, storeBufferInput, noStore]
    have entry := untouched.buffer
    simp only [MemStage.clock, StoreBuffer.clock, StoreBuffer.storeBufferD,
      StoreBuffer.afterCommit, StoreBuffer.afterDequeue,
      StoreBuffer.afterInsert, empty]
    grind
  cache := by
    simp [MemStage.clock, Dcache.clock, Dcache.nextState, untouched.cache,
      untouched.dcacheRequest noLoad]
  requests position := by
    cases position using Fin.cases with
    | zero =>
        exact untouched.dmemRequest noLoad
    | succ position =>
        exact untouched.requests _
  words := by
    have unserved : stage.dmemWrapper.served.valid = false :=
      untouched.requests 4
    simp [MemStage.clock, DmemWrapper.memoryD, unserved, untouched.words]

end MemStage

namespace Datapath

variable {core : Datapath} {word : Bus32 → Bus32}

/-- The memory stage sees neither a load nor a store. -/
theorem OfProgram.noAccess
    (ofProgram : core.OfProgram word)
    (program : RegisterProgram word) :
    MemStage.isLoad core.exeToMemQ = false ∧
      MemStage.isStore core.exeToMemQ = false := by
  cases valid : core.exeToMemQ.valid with
  | false =>
      simp [MemStage.isLoad, MemStage.isStore, valid]
  | true =>
      have carries : core.Carries .exeToMem core.exeToMemQ.instr :=
        ⟨valid, rfl⟩
      have only := ofProgram.registerOnly program carries
      have noLoad : (core.exeToMemQ.instr.wbOrigin == .mem) = false :=
        beq_false_of_ne (wbOrigin_ne_mem only)
      simp [MemStage.isLoad, MemStage.isStore, noLoad, only.noStore]

end Datapath

namespace Core

variable {powerUp : Core} {program : Memory}

/-- In a cycle the core carries words of the program only and has left the
memory alone. -/
structure Untouched (core : Core) (program : Memory) : Prop where
  ofProgram : core.datapath.OfProgram (programWord program)
  memory : core.datapath.mem.Untouched program

/-- A program on registers is never overwritten, whatever it computes. -/
theorem run_untouched
    (registers :
      RegisterProgram (programWord powerUp.datapath.mem.memory))
    (cycle : Nat) :
    (powerUp.run cycle).Untouched powerUp.datapath.mem.memory := by
  induction cycle using Nat.strong_induction_on with
  | _ cycle inductionHypothesis =>
      cases cycle with
      | zero =>
          exact {
            ofProgram := fun _ _ carries =>
              (Datapath.not_carries_reset _ carries).elim
            memory := MemStage.untouched_reset _ }
      | succ cycle =>
          have fetches :
              powerUp.FetchesProgram powerUp.datapath.mem.memory cycle := by
            intro earlier before _
            rw [(inductionHypothesis earlier (by omega)).memory.words]
          have untouched := inductionHypothesis cycle (Nat.lt_succ_self cycle)
          obtain ⟨noLoad, noStore⟩ := untouched.ofProgram.noAccess registers
          exact {
            ofProgram :=
              Datapath.ofProgram_clock (powerUp.run_onPath fetches)
                untouched.ofProgram
            memory := untouched.memory.clock noLoad noStore _ }

/-- Fetch reads the program that the memory held at reset. -/
theorem fetchesProgram_of_registers
    (registers :
      RegisterProgram (programWord powerUp.datapath.mem.memory))
    (horizon : Nat) :
    powerUp.FetchesProgram powerUp.datapath.mem.memory horizon := by
  intro cycle _ _
  rw [(run_untouched registers cycle).memory.words]

end Core

end Tartaruga
