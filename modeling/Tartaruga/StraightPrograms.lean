import Tartaruga.BitFields
import Tartaruga.MemoryLines
import Tartaruga.RobHazard
import Tartaruga.StoreBufferBypass
import Tartaruga.StoreBufferForwarding
import Tartaruga.UntouchedMemory

namespace Tartaruga

/-!
# Programs without jumps

Without jumps nothing is flushed, and without multiplications nothing
overtakes: every carried instruction waits for its completion, however long
loads and stores stall the memory stage.  The loads read the array and the
stores go past its end, so that fetch keeps reading the program and the store
buffer answers no load.
-/

/-- An instruction that neither jumps nor multiplies.  It accesses memory at an
offset from x0: a load inside the array, a store outside. -/
structure InstrData.Straight (data : InstrData) : Prop where
  noJump : data.jumpKind = .bnone
  noMul : data.isMul = false
  access :
    data.wbOrigin = .mem ∨ data.storeToMem = true →
    (data.addrRs1 = 0 ∧ data.rs1OrPc = .rs1 ∧ data.rs2OrImm = .imm ∧
        data.aluOp = .add) ∧
      Memory.inRange (immediate data.instr) = !data.storeToMem

/-- The word is decoded to such an instruction. -/
def StraightWord (instr : Bus32) : Prop :=
  (decoder 0 instr 0 0).Straight

instance (data : InstrData) : Decidable data.Straight :=
  decidable_of_iff
    (data.jumpKind = .bnone ∧ data.isMul = false ∧
      (data.wbOrigin = .mem ∨ data.storeToMem = true →
        (data.addrRs1 = 0 ∧ data.rs1OrPc = .rs1 ∧ data.rs2OrImm = .imm ∧
            data.aluOp = .add) ∧
          Memory.inRange (immediate data.instr) = !data.storeToMem))
    ⟨fun ⟨noJump, noMul, access⟩ => ⟨noJump, noMul, access⟩,
      fun straight => ⟨straight.noJump, straight.noMul, straight.access⟩⟩

instance (instr : Bus32) : Decidable (StraightWord instr) :=
  inferInstanceAs (Decidable (InstrData.Straight _))

/-- All words of the program are such instructions. -/
def StraightProgram (word : Bus32 → Bus32) : Prop :=
  ∀ pc, StraightWord (word pc)

/-- The search for x0 reports nothing. -/
theorem Rob.hazard_zero {rob : Rob} : (rob.hazard 0).hazard = false := by
  rw [Rob.hazard_eq]
  cases isFound :
      Ring.searchBack rob.tailPtrQ (rob.writes 0) 16 (rob.tailPtrQ - 1) with
  | none =>
      rfl
  | some slot =>
      obtain ⟨_, writes, _⟩ := Ring.searchBack_eq_some.mp isFound
      exact ((Rob.writes_iff.mp writes).1 rfl).elim

/-- A line past the end of the array is not written. -/
theorem Line.write_outside
    {memory : Memory}
    {addr : Bus32}
    (outside : Memory.inRange addr = false)
    (line : Line) :
    Line.write memory (Dcache.lineAligned addr) line = memory := by
  have unwritten :
      ∀ word : Fin 4,
        Memory.inRange
            (Dcache.lineAligned addr + BitVec.ofNat 32 (word.val * 4)) =
          false := by
    intro word
    have bound := addr.isLt
    have offset := word.isLt
    simp only [Memory.inRange, decide_eq_false_iff_not] at outside ⊢
    simp only [Dcache.lineAligned, BitVec.toNat_add, BitVec.toNat_ofNat,
      BitFields.toNat_append_eq, BitVec.extractLsb'_toNat,
      Nat.shiftRight_eq_div_pow]
    omega
  simp [Line.write, List.finRange_succ, Memory.writeMem, unwritten]

namespace MemStage

variable {stage : MemStage} {exeToMem : ExeToMem} {memory : Memory}

/-- Whatever is on its way to the memory to be written goes past its end. -/
structure Guarded (stage : MemStage) (memory : Memory) : Prop where
  buffer :
    ∀ slot,
      (stage.storeBuffer.storeBufferQ slot).valid = true →
      Memory.inRange (stage.storeBuffer.storeBufferQ slot).addr = false
  requests :
    ∀ position,
      (stage.dmemWrapper.reqPipe position).valid = true →
      (stage.dmemWrapper.reqPipe position).we = true →
      ∃ addr,
        (stage.dmemWrapper.reqPipe position).addr =
            Dcache.lineAligned addr ∧
          Memory.inRange addr = false
  words : stage.memory = memory

theorem guarded_reset (stage : MemStage) :
    stage.reset.Guarded stage.memory where
  buffer _ valid := by cases valid
  requests _ valid := by cases valid
  words := rfl

variable (guarded : stage.Guarded memory)
include guarded

/-- A load in the array is not answered by the store buffer. -/
theorem Guarded.noBypass
    (inside : Memory.inRange exeToMem.result = true) :
    stage.bypassFromSb exeToMem = false := by
  cases isFound : stage.storeBuffer.bypassSlot exeToMem.result with
  | none =>
      simp [bypassFromSb, StoreBuffer.bypass, isFound]
  | some slot =>
      have isMatch := (StoreBuffer.bypassSlot_eq_some.mp isFound).2.1
      simp only [StoreBuffer.matchesAt, Bool.and_eq_true, beq_iff_eq]
        at isMatch
      have outside := guarded.buffer slot isMatch.1
      rw [isMatch.2, inside] at outside
      cases outside

/-- A store that is presented goes past the end of the array. -/
theorem Guarded.presented (presents : stage.sbRspValid = true) :
    Memory.inRange (stage.dcacheAddr exeToMem) = false := by
  have valid : stage.storeBuffer.headEntry.valid = true :=
    (Bool.and_eq_true_iff.mp presents).1
  have isHead : stage.storeBuffer.addrOut = stage.storeBuffer.headEntry.addr :=
    if_pos presents
  rw [dcacheAddr, if_pos presents, isHead]
  exact guarded.buffer _ valid

/-- A write that is requested goes past the end of the array. -/
theorem Guarded.dmemRequest
    (writes : (stage.dmemRequest exeToMem).we = true) :
    ∃ addr,
      (stage.dmemRequest exeToMem).addr = Dcache.lineAligned addr ∧
        Memory.inRange addr = false := by
  unfold MemStage.dmemRequest Dcache.memReq at writes ⊢
  cases state : stage.dcache.state with
  | idle =>
      simp only [state] at writes ⊢
      split at writes
      · rename_i asks
        rw [if_pos asks]
        rw [Bool.and_eq_true] at asks
        exact ⟨_, rfl, guarded.presented asks.2⟩
      · cases writes
  | miss =>
      simp only [state] at writes
      split at writes <;> cases writes
  | loadLine =>
      simp only [state] at writes
      cases writes

/-- A cycle whose store, if there is one, goes past the end of the array leaves
the memory alone. -/
theorem Guarded.clock
    (outside :
      isStore exeToMem = true → Memory.inRange exeToMem.result = false)
    (input : MemInput) :
    (stage.clock exeToMem input).Guarded memory where
  buffer slot valid := by
    change
      (stage.storeBuffer.storeBufferD
        (stage.storeBufferInput exeToMem input) slot).valid = true at valid
    change
      Memory.inRange
        (stage.storeBuffer.storeBufferD
          (stage.storeBufferInput exeToMem input) slot).addr = false
    rw [StoreBuffer.storeBufferD_valid] at valid
    rw [StoreBuffer.storeBufferD_addr]
    split
    · rename_i fills
      have inserted := fills.1
      simp only [StoreBuffer.inserts, storeBufferInput, Bool.and_eq_true]
        at inserted
      exact outside inserted.1.1
    · rename_i notFilled
      exact guarded.buffer slot (valid.2.resolve_left notFilled)
  requests position := by
    cases position using Fin.cases with
    | zero =>
        intro _ writes
        exact guarded.dmemRequest writes
    | succ position =>
        exact guarded.requests _
  words := by
    change stage.dmemWrapper.memoryD stage.memory = memory
    rw [DmemWrapper.memoryD]
    split
    · rename_i writes
      rw [Bool.and_eq_true] at writes
      obtain ⟨addr, isLine, past⟩ := guarded.requests 4 writes.1 writes.2
      rw [DmemWrapper.served, isLine, Line.write_outside past]
      exact guarded.words
    · exact guarded.words

end MemStage

namespace Datapath

variable {core : Datapath} {answer : FetchAnswer} {word : Bus32 → Bus32}
  {place : Place} {instr : InstrData}

/-- No branch is taken, and none has been. -/
structure TakesNone (core : Datapath) : Prop where
  exeToMem : core.exeToMemQ.branchTaken = false
  memToWb : core.memToWbQ.branchTaken = false
  entries :
    ∀ slot,
      (core.rob.robQ slot).valid = true →
      (core.rob.robQ slot).completed = true →
      (core.rob.robQ slot).branchTaken = false

theorem takesNone_reset (core : Datapath) : core.reset.TakesNone where
  exeToMem := rfl
  memToWb := rfl
  entries _ valid := by cases valid

/-- Then nothing is flushed. -/
theorem TakesNone.noFlush (takesNone : core.TakesNone) :
    core.rob.flush = false := by
  by_contra flushes
  simp only [Rob.flush, Bool.not_eq_false, Bool.and_eq_true] at flushes
  obtain ⟨valid, completed⟩ := Rob.commitValid_iff.mp flushes.1
  have notTaken := takesNone.entries _ valid completed
  rw [flushes.2] at notTaken
  cases notTaken

/-- It stays so as long as execute takes no branch. -/
theorem TakesNone.clock
    (takesNone : core.TakesNone)
    (notTaken : core.exeToMemD.branchTaken = false) :
    (core.clock answer).TakesNone where
  exeToMem := by
    cases stalls : core.stallFromMem with
    | true =>
        rw [exeToMemQ_of_stalls stalls]
        exact takesNone.exeToMem
    | false =>
        rw [exeToMemQ_of_moves stalls]
        exact notTaken
  memToWb := takesNone.exeToMem
  entries slot valid completed := by
    change
      (core.rob.robD (core.robAlloc answer) core.robWb slot).valid = true
      at valid
    change
      (core.rob.robD (core.robAlloc answer) core.robWb slot).completed = true
      at completed
    change
      (core.rob.robD (core.robAlloc answer) core.robWb
        slot).payload.branchTaken = false
    rw [Rob.robD_completed] at completed
    rw [Rob.robD_payload]
    by_cases writesBack : core.rob.writesBack core.robWb slot
    · rw [if_pos writesBack]
      exact takesNone.memToWb
    · rw [if_neg writesBack] at completed ⊢
      by_cases allocates : core.rob.allocates (core.robAlloc answer) slot
      · rw [if_pos allocates] at completed
        cases completed
      · rw [if_neg allocates] at completed
        obtain ⟨_, _, allocated | inUse⟩ := Rob.robD_valid.mp valid
        · exact (allocates allocated).elim
        · exact takesNone.entries slot inUse completed

/-- Operands at x0 are zero, and accesses name the offsets of their words. -/
structure Addressed (core : Datapath) : Prop where
  operand :
    core.decodeToExeQ.valid = true →
    core.decodeToExeQ.instr.addrRs1 = 0 →
    core.decodeToExeQ.dataRs1 = 0
  offset :
    core.decodeToExeQ.valid = true →
    core.decodeToExeQ.immediate = immediate core.decodeToExeQ.instr.instr
  access :
    MemStage.isLoad core.exeToMemQ = true ∨
        MemStage.isStore core.exeToMemQ = true →
      Memory.inRange core.exeToMemQ.result =
        !core.exeToMemQ.instr.storeToMem

theorem addressed_reset (core : Datapath) : core.reset.Addressed where
  operand valid := by cases valid
  offset valid := by cases valid
  access accesses := by
    rcases accesses with isLoad | isStore
    · cases isLoad
    · cases isStore

/-- What stands in front of execute has just come in, is a bubble, or was held
there. -/
theorem decodeToExeNext_cases (core : Datapath) (answer : FetchAnswer) :
    core.decodeToExeNext answer = core.decodeToExeD answer ∨
      core.decodeToExeNext answer = nopInstr ∨
      core.decodeToExeNext answer = core.decodeToExeQ := by
  unfold decodeToExeNext
  split
  · exact .inl rfl
  · split
    · exact .inr (.inl rfl)
    · exact .inr (.inr rfl)

/-- A source at x0 reads zero. -/
theorem operand_zero
    (zero : core.regfile 0 = 0)
    (isZero : core.decoded.addrRs1 = 0) :
    (core.decodeToExeD answer).dataRs1 = 0 := by
  have noHazard : core.hazardRs1.hazard = false := by
    rw [hazardRs1, isZero]
    exact Rob.hazard_zero
  simp only [decodeToExeD, operand, noHazard, Bool.false_eq_true, if_false,
    isZero, zero]

section Straight

variable (ofProgram : core.OfProgram word) (pipesMul : core.PipesMul)
  (program : StraightProgram word)
include ofProgram program

/-- Every carried instruction is straight. -/
theorem OfProgram.isStraight (carries : core.Carries place instr) :
    instr.Straight := by
  obtain ⟨pc, robIdx, idDecode, rfl⟩ := ofProgram place instr carries
  rw [decoder_relabelled pc (word pc) robIdx idDecode 0]
  obtain ⟨noJump, noMul, access⟩ := program pc
  exact ⟨noJump, noMul, access⟩

include pipesMul

/-- The execute pipe is empty. -/
theorem OfProgram.pipe_free (stage : Fin 4) :
    (core.exe.exePipeQ stage.castSucc).valid = false := by
  by_contra valid
  have carries :
      core.Carries (.exePipe stage)
        (core.exe.exePipeQ stage.castSucc).instr :=
    ⟨Bool.not_eq_false _ ▸ valid, rfl⟩
  have notMul := (ofProgram.isStraight program carries).noMul
  rw [pipesMul stage _ carries] at notMul
  cases notMul

/-- What leaves execute is what stands in front of it. -/
theorem OfProgram.last_eq (valid : core.exeToMemD.valid = true) :
    core.exe.exePipeD core.decodeToExeQ 4 = core.decodeToExeQ := by
  rcases Exe.exePipeD_cases core.exe core.decodeToExeQ 4 with
    moved | ⟨isInput, _⟩
  · change (core.exe.exePipeD core.decodeToExeQ 4).valid = true at valid
    rw [moved, Exe.shifted_last] at valid
    have free := ofProgram.pipe_free pipesMul program 3
    change (core.exe.exePipeQ 3).valid = false at free
    rw [free] at valid
    cases valid
  · exact isInput

/-- Execute takes no branch. -/
theorem OfProgram.noTaken : core.exeToMemD.branchTaken = false := by
  by_contra taken
  simp only [exeToMemD, Exe.exeToMemD, Bool.not_eq_false, Bool.and_eq_true,
    decide_eq_true_eq] at taken
  have valid : core.exeToMemD.valid = true := taken.2
  have last := ofProgram.last_eq pipesMul program valid
  rw [last] at taken
  have carries : core.Carries .decodeToExe core.decodeToExeQ.instr :=
    ⟨taken.2, rfl⟩
  exact taken.1.2 (ofProgram.isStraight program carries).noJump

/-- Accesses leave execute with the offsets of their words. -/
theorem Addressed.clock
    (addressed : core.Addressed)
    (zero : core.regfile 0 = 0) :
    (core.clock answer).Addressed where
  operand valid isZero := by
    change (core.decodeToExeNext answer).valid = true at valid
    change (core.decodeToExeNext answer).instr.addrRs1 = 0 at isZero
    change (core.decodeToExeNext answer).dataRs1 = 0
    rcases core.decodeToExeNext_cases answer with
      enters | bubble | held
    · rw [enters] at isZero ⊢
      exact operand_zero zero isZero
    · rw [bubble] at valid
      cases valid
    · rw [held] at valid isZero ⊢
      exact addressed.operand valid isZero
  offset valid := by
    change (core.decodeToExeNext answer).valid = true at valid
    change
      (core.decodeToExeNext answer).immediate =
        immediate (core.decodeToExeNext answer).instr.instr
    rcases core.decodeToExeNext_cases answer with
      enters | bubble | held
    · rw [enters]
      rfl
    · rw [bubble] at valid
      cases valid
    · rw [held] at valid ⊢
      exact addressed.offset valid
  access accesses := by
    cases stalls : core.stallFromMem with
    | true =>
        rw [exeToMemQ_of_stalls stalls] at accesses ⊢
        exact addressed.access accesses
    | false =>
        rw [exeToMemQ_of_moves stalls] at accesses ⊢
        have valid : core.exeToMemD.valid = true := by
          rcases accesses with isLoad | isStore
          · exact (Bool.and_eq_true_iff.mp isLoad).2
          · exact (Bool.and_eq_true_iff.mp isStore).2
        have last := ofProgram.last_eq pipesMul program valid
        have entered : core.exeToMemD.instr = core.decodeToExeQ.instr :=
          congrArg DecodeToExe.instr last
        have inFront : core.decodeToExeQ.valid = true := by
          rw [← last]
          exact valid
        have carries : core.Carries .decodeToExe core.decodeToExeQ.instr :=
          ⟨inFront, rfl⟩
        have isStraight := ofProgram.isStraight program carries
        have isAccess :
            core.decodeToExeQ.instr.wbOrigin = .mem ∨
              core.decodeToExeQ.instr.storeToMem = true := by
          rw [← entered]
          rcases accesses with isLoad | isStore
          · exact .inl (eq_of_beq (Bool.and_eq_true_iff.mp isLoad).1)
          · exact .inr (Bool.and_eq_true_iff.mp isStore).1
        obtain ⟨⟨atZero, ofRs1, ofImm, adds⟩, inside⟩ :=
          isStraight.access isAccess
        have result :
            core.exeToMemD.result =
              immediate core.decodeToExeQ.instr.instr := by
          simp only [exeToMemD, Exe.exeToMemD, last, isStraight.noMul,
            Bool.false_eq_true, if_false, Exe.resAlu, Exe.aluDataRs1,
            Exe.aluDataRs2, ofRs1, ofImm, adds, if_true,
            addressed.operand inFront atZero, addressed.offset inFront]
          exact BitVec.zero_add _
        rw [result, entered]
        exact inside

end Straight

/-- What holds in every cycle of a program without jumps. -/
structure GoesStraight
    (core : Datapath)
    (word : Bus32 → Bus32)
    (memory : Memory) :
    Prop where
  ofProgram : core.OfProgram word
  pipesMul : core.PipesMul
  takesNone : core.TakesNone
  addressed : core.Addressed
  guarded : core.mem.Guarded memory
  owned : core.Owned
  distinct : core.Distinct
  waiting : core.Waiting

theorem goesStraight_reset (core : Datapath) (word : Bus32 → Bus32) :
    core.reset.GoesStraight word core.mem.memory where
  ofProgram _ _ carries := (not_carries_reset core carries).elim
  pipesMul _ _ carries := (not_carries_reset core carries).elim
  takesNone := takesNone_reset core
  addressed := addressed_reset core
  guarded := MemStage.guarded_reset core.mem
  owned := owned_reset core
  distinct := distinct_reset core
  waiting := waiting_reset core

namespace GoesStraight

variable {memory : Memory} {expected : Bus32}
  (goesStraight : core.GoesStraight word memory)
include goesStraight

/-- Loads lie inside the array. -/
theorem inside_of_isLoad (isLoad : MemStage.isLoad core.exeToMemQ = true) :
    Memory.inRange core.exeToMemQ.result = true := by
  obtain ⟨fromMemory, valid⟩ := Bool.and_eq_true_iff.mp isLoad
  have carries : core.Carries .exeToMem core.exeToMemQ.instr := ⟨valid, rfl⟩
  have noStore :=
    ((goesStraight.ofProgram.shaped _ _ carries).ofLoad
      (eq_of_beq fromMemory)).1
  rw [goesStraight.addressed.access (.inl isLoad), noStore]
  rfl

/-- Stores lie outside. -/
theorem outside_of_isStore (isStore : MemStage.isStore core.exeToMemQ = true) :
    Memory.inRange core.exeToMemQ.result = false := by
  rw [goesStraight.addressed.access (.inr isStore),
    (Bool.and_eq_true_iff.mp isStore).1]
  rfl

variable (program : StraightProgram word)
include program

/-- No instruction is kept where it was passed on. -/
theorem keepsCopy : core.keepsCopy = false := by
  have noBypass : core.bypassedLoadStalls = false := by
    by_contra stalls
    simp only [bypassedLoadStalls, Bool.not_eq_false, Bool.and_eq_true]
      at stalls
    have apart :=
      goesStraight.guarded.noBypass
        (goesStraight.inside_of_isLoad stalls.1.1)
    rw [stalls.1.2] at apart
    cases apart
  have noMul : core.mulHeld = false := by
    by_contra held
    simp only [mulHeld, Bool.not_eq_false, Bool.and_eq_true] at held
    have carries : core.Carries .decodeToExe core.decodeToExeQ.instr :=
      ⟨held.1.2, rfl⟩
    have notMul := (goesStraight.ofProgram.isStraight program carries).noMul
    rw [held.2] at notMul
    cases notMul
  rw [Datapath.keepsCopy, noBypass, noMul]
  rfl

/-- Nothing is dropped at the end of the execute pipe. -/
theorem dropsLast : core.dropsLast = false := by
  have free := goesStraight.ofProgram.pipe_free goesStraight.pipesMul program 3
  have notCarried :
      core.carriesFor (core.register (.exePipe 3)).2.robIdx (.exePipe 3) =
        false := by
    simp only [carriesFor, register, free, Bool.false_and]
  simp only [Datapath.dropsLast, notCarried, Bool.and_false, Bool.false_and]

/-- A clock edge that stays on the path of the program goes straight on. -/
theorem clock
    (wellFormed : core.rob.WellFormed)
    (numbered : core.DecodeNumbered)
    (zero : core.regfile 0 = 0)
    (path : core.OnPath word expected) :
    (core.clock answer).GoesStraight word memory := by
  have noCopy := goesStraight.keepsCopy program
  have outside := goesStraight.outside_of_isStore
  obtain ⟨ofProgram, pipesMul, takesNone, addressed, guarded, owned,
    distinct, waiting⟩ := goesStraight
  exact {
    ofProgram := ofProgram_clock path ofProgram
    pipesMul := pipesMul_clock ofProgram.shaped pipesMul
    takesNone := takesNone.clock (ofProgram.noTaken pipesMul program)
    addressed := addressed.clock ofProgram pipesMul program zero
    guarded := guarded.clock outside _
    owned := owned_clock owned (noReuse wellFormed (.inl waiting))
    distinct := distinct_clock noCopy ofProgram.shaped numbered distinct
    waiting :=
      waiting_clock wellFormed owned distinct waiting takesNone.noFlush }

end GoesStraight

end Datapath

namespace Core

variable {powerUp : Core}

/-- A program without jumps goes straight in every cycle. -/
theorem run_goesStraight
    (program : StraightProgram (programWord powerUp.datapath.mem.memory))
    (cycle : Nat) :
    (powerUp.run cycle).datapath.GoesStraight
      (programWord powerUp.datapath.mem.memory)
      powerUp.datapath.mem.memory := by
  induction cycle using Nat.strong_induction_on with
  | _ cycle inductionHypothesis =>
      cases cycle with
      | zero =>
          exact Datapath.goesStraight_reset _ _
      | succ cycle =>
          have fetches :
              powerUp.FetchesProgram powerUp.datapath.mem.memory cycle := by
            intro earlier before _
            rw [(inductionHypothesis earlier (by omega)).guarded.words]
          have zero : (powerUp.run cycle).datapath.regfile 0 = 0 := by
            rw [run_regfile powerUp (by decide) cycle,
              Regfile.architectural_zero]
          exact
            (inductionHypothesis cycle (Nat.lt_succ_self cycle)).clock program
              (powerUp.run_rob_wellFormed cycle)
              (powerUp.run_decodeNumbered cycle) zero
              (powerUp.run_onPath fetches)

/--
A program that neither jumps nor multiplies, loads from the array and stores
past its end hands out no index in use and drops no instruction, in every
cycle from every power-up state.
-/
theorem orderly_of_straight
    (program : StraightProgram (programWord powerUp.datapath.mem.memory))
    (cycle : Nat) :
    (powerUp.run cycle).datapath.reuses (powerUp.run cycle).answer = false ∧
      (powerUp.run cycle).datapath.dropsLast = false := by
  have goesStraight := run_goesStraight program cycle
  exact
    ⟨Datapath.noReuse (powerUp.run_rob_wellFormed cycle)
        (.inl goesStraight.waiting),
      goesStraight.dropsLast program⟩

end Core

end Tartaruga
