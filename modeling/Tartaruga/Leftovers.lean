import Tartaruga.CommittedStores

namespace Tartaruga

/-!
# What reset leaves behind

Reset leaves x31, the store-buffer index in the entries of the reorder buffer
and the response pipe of the memory wrapper as they were; a stale index may
also set discard marks that no other run sets.  `withLeftovers` puts other
contents into exactly these places.  The lemmas say which signals see them.
-/

namespace Rob

variable {rob : Rob} {idx : RobIdx → StoreBufferIdx} {alloc : RobAlloc}
  {wb : RobWb}

/-- The buffer with other store-buffer indices in its entries. -/
def withIdx (rob : Rob) (idx : RobIdx → StoreBufferIdx) : Rob :=
  { rob with
    robQ := fun slot =>
      { rob.robQ slot with storeBufferIdx := idx slot } }

/-- The hazard search does not read the indices. -/
theorem hazardLoop_withIdx
    (rsAddr : RegAddr)
    (rounds : Nat)
    (slot : RobIdx)
    (found : RobHazard) :
    (rob.withIdx idx).hazardLoop rsAddr rounds slot found =
      rob.hazardLoop rsAddr rounds slot found := by
  induction rounds generalizing slot found with
  | zero =>
      rfl
  | succ rounds inductionHypothesis =>
      simp only [hazardLoop, inductionHypothesis]
      rfl

@[simp] theorem hazard_withIdx (rsAddr : RegAddr) :
    (rob.withIdx idx).hazard rsAddr = rob.hazard rsAddr :=
  hazardLoop_withIdx rsAddr 16 _ noHazard

@[simp] theorem robFull_withIdx : (rob.withIdx idx).robFull = rob.robFull :=
  rfl

@[simp] theorem flush_withIdx : (rob.withIdx idx).flush = rob.flush :=
  rfl

/-- A commit shows an index that its own write-back wrote. -/
theorem commit_withIdx
    (completed :
      ∀ slot,
        (rob.robQ slot).completed = true →
        idx slot = (rob.robQ slot).storeBufferIdx) :
    (rob.withIdx idx).commit = rob.commit := by
  have sameValid : (rob.withIdx idx).commitValid = rob.commitValid := rfl
  simp only [commit, sameValid]
  split
  · rename_i valid
    simp only [commitValid, Bool.and_eq_true] at valid
    simp only [withIdx, completed _ valid.2]
  · rfl

/-- The indices after the edge. -/
def idxD
    (rob : Rob)
    (wb : RobWb)
    (idx : RobIdx → StoreBufferIdx)
    (slot : RobIdx) :
    StoreBufferIdx :=
  if rob.writesBack wb slot then wb.storeBufferIdx else idx slot

/-- A clock edge moves the indices and nothing that depends on them. -/
theorem afterWb_withIdx :
    (rob.withIdx idx).afterWb alloc wb =
      fun slot =>
        { rob.afterWb alloc wb slot with
          storeBufferIdx := rob.idxD wb idx slot } := by
  funext slot
  have sameWrites :
      (rob.withIdx idx).writesBack wb slot ↔ rob.writesBack wb slot :=
    Iff.rfl
  have sameAllocates :
      (rob.withIdx idx).allocates alloc slot ↔ rob.allocates alloc slot :=
    Iff.rfl
  rw [afterWb_apply, afterWb_apply]
  simp only [sameWrites, sameAllocates, idxD]
  split <;> split <;> rfl

theorem robD_withIdx :
    (rob.withIdx idx).robD alloc wb =
      fun slot =>
        { rob.robD alloc wb slot with
          storeBufferIdx := rob.idxD wb idx slot } := by
  funext slot
  have sameFlush : (rob.withIdx idx).flush = rob.flush := rfl
  have sameRetires :
      (rob.withIdx idx).retires slot ↔ rob.retires slot :=
    Iff.rfl
  rw [robD_apply, robD_apply, afterWb_withIdx]
  simp only [sameFlush, sameRetires]
  split <;> rfl

theorem clock_withIdx :
    (rob.withIdx idx).clock alloc wb =
      (rob.clock alloc wb).withIdx (rob.idxD wb idx) := by
  simp only [clock, robD_withIdx]
  rfl

end Rob

namespace StoreBuffer

variable {buffer : StoreBuffer} {marks : Fin 4 → Bool}
  {input : StoreBufferInput}

/-- The buffer with other discard marks in its slots. -/
def withMarks (buffer : StoreBuffer) (marks : Fin 4 → Bool) : StoreBuffer :=
  { buffer with
    storeBufferQ := fun slot =>
      { buffer.storeBufferQ slot with discarded := marks slot } }

/-- The marks agree where the buffer looks at them: on stores that wait for
their commit. -/
def Undecided (buffer : StoreBuffer) (marks : Fin 4 → Bool) : Prop :=
  ∀ slot,
    (buffer.storeBufferQ slot).valid = true →
    (buffer.storeBufferQ slot).committed = false →
    marks slot = (buffer.storeBufferQ slot).discarded

/-- The search for a load address does not read the marks. -/
theorem searchLoop_withMarks
    (addr : Bus32)
    (rounds : Nat)
    (slot : StoreBufferIdx) :
    (buffer.withMarks marks).searchLoop addr rounds slot =
      buffer.searchLoop addr rounds slot := by
  induction rounds generalizing slot with
  | zero =>
      rfl
  | succ rounds inductionHypothesis =>
      simp only [searchLoop, inductionHypothesis]
      rfl

theorem bypassSlot_withMarks (addr : Bus32) :
    (buffer.withMarks marks).bypassSlot addr = buffer.bypassSlot addr :=
  searchLoop_withMarks addr 4 _

@[simp] theorem bypass_withMarks (addr : Bus32) :
    (buffer.withMarks marks).bypass addr = buffer.bypass addr := by
  rw [bypass, bypassSlot_withMarks, bypass]

@[simp] theorem dataRd_withMarks (addr : Bus32) :
    (buffer.withMarks marks).dataRd addr = buffer.dataRd addr := by
  simp only [dataRd, bypassSlot_withMarks]
  rfl

/-- Only an undecided store is dropped. -/
theorem drops_withMarks (undecided : buffer.Undecided marks) :
    (buffer.withMarks marks).drops = buffer.drops := by
  change
    (!buffer.rspValid && (buffer.headEntry.valid && marks buffer.headPtrQ)) =
      (!buffer.rspValid &&
        (buffer.headEntry.valid && buffer.headEntry.discarded))
  cases valid : buffer.headEntry.valid with
  | false =>
      simp
  | true =>
      cases committed : buffer.headEntry.committed with
      | true =>
          simp [rspValid, valid, committed]
      | false =>
          rw [undecided buffer.headPtrQ valid committed]
          rfl

/-- The marks after the edge under another discard mask. -/
def marksD
    (buffer : StoreBuffer)
    (marks : Fin 4 → Bool)
    (input : StoreBufferInput)
    (mask : Fin 4 → Bool)
    (slot : StoreBufferIdx) :
    Bool :=
  mask slot || (!decide (buffer.fills input slot) && marks slot)

/-- A clock edge under another discard mask moves the marks and nothing that
depends on them. -/
theorem clock_withMarks
    (undecided : buffer.Undecided marks)
    (input : StoreBufferInput)
    (mask : Fin 4 → Bool) :
    (buffer.withMarks marks).clock { input with discard := mask } =
      (buffer.clock input).withMarks
        (buffer.marksD marks input mask) := by
  have sameDrops := drops_withMarks undecided
  have sameFills :
      ∀ slot,
        (buffer.withMarks marks).fills { input with discard := mask } slot ↔
          buffer.fills input slot :=
    fun _ => Iff.rfl
  have sameDequeues :
      (buffer.withMarks marks).dequeues { input with discard := mask } =
        buffer.dequeues input := by
    simp only [dequeues, sameDrops]
    rfl
  have sameFrees :
      ∀ slot,
        (buffer.withMarks marks).frees { input with discard := mask } slot ↔
          buffer.frees input slot := by
    intro slot
    simp only [frees, sameDequeues]
    rfl
  have slots :
      (buffer.withMarks marks).storeBufferD { input with discard := mask } =
        fun slot =>
          { buffer.storeBufferD input slot with
            discarded := buffer.marksD marks input mask slot } := by
    funext slot
    rw [storeBufferD_apply, storeBufferD_apply, afterDequeue_apply,
      afterDequeue_apply]
    simp only [sameFills, sameFrees, marksD]
    by_cases filled : buffer.fills input slot <;>
      by_cases freed : buffer.frees input slot <;>
      simp [filled, freed, withMarks]
  have sameHead :
      (buffer.withMarks marks).headPtrD { input with discard := mask } =
        buffer.headPtrD input := by
    have leaves := sameDequeues
    simp only [dequeues] at leaves
    simp only [headPtrD, leaves]
    rfl
  simp only [clock, slots, sameHead]
  rfl

/-- The marks go on agreeing if the masks agree on undecided stores, and on
all slots when a store is inserted. -/
theorem undecided_clock
    {mask : Fin 4 → Bool}
    (undecided : buffer.Undecided marks)
    (sameMask :
      ∀ slot,
        buffer.liveAt slot = true ∨ buffer.inserts input = true →
        mask slot = input.discard slot) :
    (buffer.clock input).Undecided (buffer.marksD marks input mask) := by
  intro slot valid committed
  change (buffer.storeBufferD input slot).valid = true at valid
  change (buffer.storeBufferD input slot).committed = false at committed
  change
    buffer.marksD marks input mask slot =
      (buffer.storeBufferD input slot).discarded
  rw [storeBufferD_discarded, marksD]
  by_cases filled : buffer.fills input slot
  · rw [sameMask slot (.inr filled.1)]
    simp [filled]
  · have validBefore : (buffer.storeBufferQ slot).valid = true :=
      (storeBufferD_valid.mp valid).2.resolve_left filled
    have committedBefore :
        (buffer.storeBufferQ slot).committed = false := by
      rw [storeBufferD_committed, Bool.or_eq_false_iff] at committed
      simpa [filled] using committed.2
    rw [undecided slot validBefore committedBefore]
    cases discarded : (buffer.storeBufferQ slot).discarded with
    | true =>
        simp [filled]
    | false =>
        have isLive : buffer.liveAt slot = true := by
          simp [liveAt, validBefore, committedBefore, discarded]
        rw [sameMask slot (.inl isLive)]

end StoreBuffer

/-- Contents of the places that reset leaves alone, and of the marks that
depend on them. -/
structure Leftovers where
  regfile : Regfile
  storeBufferIdx : RobIdx → StoreBufferIdx
  marks : Fin 4 → Bool
  rspPipe : Fin 5 → MemResponse

namespace MemStage

variable {stage : MemStage} {rest : Leftovers} {exeToMem : ExeToMem}

/-- The memory stage with other leftovers. -/
def withLeftovers (stage : MemStage) (rest : Leftovers) : MemStage :=
  { stage with
    storeBuffer := stage.storeBuffer.withMarks rest.marks
    dmemWrapper :=
      { stage.dmemWrapper with
        rspPipe := rest.rspPipe } }

@[simp] theorem sbRspValid_withLeftovers :
    (stage.withLeftovers rest).sbRspValid = stage.sbRspValid :=
  rfl

@[simp] theorem bypassFromSb_withLeftovers :
    (stage.withLeftovers rest).bypassFromSb exeToMem =
      stage.bypassFromSb exeToMem :=
  StoreBuffer.bypass_withMarks _

@[simp] theorem isCollision_withLeftovers :
    (stage.withLeftovers rest).isCollision exeToMem =
      stage.isCollision exeToMem := by
  simp [isCollision]

@[simp] theorem dcacheRequest_withLeftovers :
    (stage.withLeftovers rest).dcacheRequest exeToMem =
      stage.dcacheRequest exeToMem :=
  rfl

/-- The data cache takes no notice of the leftovers in this cycle. -/
structure CacheBlind
    (stage : MemStage)
    (rest : Leftovers)
    (exeToMem : ExeToMem) :
    Prop where
  ready :
    (stage.withLeftovers rest).dcacheReady exeToMem =
      stage.dcacheReady exeToMem
  dmemRequest :
    (stage.withLeftovers rest).dmemRequest exeToMem =
      stage.dmemRequest exeToMem
  clock :
    stage.dcache.clock (stage.dcacheRequest exeToMem) (rest.rspPipe 4) =
      stage.dcache.clock (stage.dcacheRequest exeToMem) stage.dmemResponse

theorem CacheBlind.stall (blind : stage.CacheBlind rest exeToMem) :
    (stage.withLeftovers rest).stall exeToMem = stage.stall exeToMem := by
  simp only [MemStage.stall, blind.ready, isCollision_withLeftovers]
  rfl

theorem CacheBlind.memToWbD (blind : stage.CacheBlind rest exeToMem) :
    (stage.withLeftovers rest).memToWbD exeToMem =
      stage.memToWbD exeToMem := by
  have sameBypass :
      (stage.withLeftovers rest).validLoadBypass exeToMem =
        stage.validLoadBypass exeToMem := by
    simp only [validLoadBypass, bypassFromSb_withLeftovers]
  have sameDcache :
      (stage.withLeftovers rest).validLoadDcache exeToMem =
        stage.validLoadDcache exeToMem := by
    simp only [validLoadDcache, blind.ready, bypassFromSb_withLeftovers,
      isCollision_withLeftovers]
  have sameData :
      (stage.withLeftovers rest).storeBuffer.dataRd exeToMem.result =
        stage.storeBuffer.dataRd exeToMem.result :=
    StoreBuffer.dataRd_withMarks _
  simp only [MemStage.memToWbD, wbResult, sameBypass, sameDcache, sameData]
  rfl

/-- The response pipe after the edge. -/
def rspPipeD
    (stage : MemStage)
    (rest : Leftovers)
    (response : Fin 5) :
    MemResponse :=
  if response = 0 then
    (stage.withLeftovers rest).dmemWrapper.rspPipeLoad stage.memory
  else
    rest.rspPipe (response - 1)

/-- A clock edge that the cache does not notice moves the leftovers and
nothing else. -/
theorem clock_withLeftovers
    (blind : stage.CacheBlind rest exeToMem)
    (undecided : stage.storeBuffer.Undecided rest.marks)
    (input : MemInput)
    (mask : Fin 4 → Bool) :
    (stage.withLeftovers rest).clock exeToMem
        { input with discardStoreBuffer := mask } =
      (stage.clock exeToMem input).withLeftovers
        { rest with
          marks :=
            stage.storeBuffer.marksD rest.marks
              (stage.storeBufferInput exeToMem input) mask
          rspPipe := stage.rspPipeD rest } := by
  have sameInput :
      (stage.withLeftovers rest).storeBufferInput exeToMem
          { input with discardStoreBuffer := mask } =
        { stage.storeBufferInput exeToMem input with discard := mask } := by
    simp only [storeBufferInput, blind.ready]
  have storeBuffer :=
    StoreBuffer.clock_withMarks undecided
      (stage.storeBufferInput exeToMem input) mask
  simp only [clock, sameInput, blind.dmemRequest]
  exact MemStage.mk.injEq .. ▸ ⟨storeBuffer, blind.clock, rfl, rfl⟩

end MemStage

namespace Datapath

variable {core : Datapath} {rest : Leftovers} {answer : FetchAnswer}

/-- The datapath with other leftovers. -/
def withLeftovers (core : Datapath) (rest : Leftovers) : Datapath :=
  { core with
    regfile := rest.regfile
    rob := core.rob.withIdx rest.storeBufferIdx
    mem := core.mem.withLeftovers rest }

/-- The leftovers agree where the next write is not what decides. -/
structure Harmless (core : Datapath) (rest : Leftovers) : Prop where
  regfile :
    ∀ register,
      register ≠ 31 → rest.regfile register = core.regfile register
  completed :
    ∀ slot,
      (core.rob.robQ slot).completed = true →
      rest.storeBufferIdx slot = (core.rob.robQ slot).storeBufferIdx
  undecided : core.mem.storeBuffer.Undecided rest.marks

/-- Decode passes an operand on that it takes from x31. -/
def readsLast (core : Datapath) (answer : FetchAnswer) : Bool :=
  !core.stall answer &&
    ((core.decoded.addrRs1 == 31 && !core.hazardRs1.hazard) ||
      (core.decoded.addrRs2 == 31 && !core.hazardRs2.hazard))

/-- The leftovers after the edge. -/
def leftoversD
    (core : Datapath)
    (rest : Leftovers)
    (answer : FetchAnswer) :
    Leftovers where
  regfile :=
    rest.regfile.clock core.commit.rdAddr core.commit.result
      core.commit.writeEnable
  storeBufferIdx := core.rob.idxD core.robWb rest.storeBufferIdx
  marks :=
    core.mem.storeBuffer.marksD rest.marks (core.storeBufferInput answer)
      ((core.rob.withIdx rest.storeBufferIdx).discardStoreBuffer
        (core.robAlloc answer) core.robWb)
  rspPipe := core.mem.rspPipeD rest

section Signals

variable (blind : core.mem.CacheBlind rest core.exeToMemQ)

@[simp] theorem decoded_withLeftovers :
    (core.withLeftovers rest).decoded = core.decoded :=
  rfl

@[simp] theorem hazardRs1_withLeftovers :
    (core.withLeftovers rest).hazardRs1 = core.hazardRs1 :=
  Rob.hazard_withIdx _

@[simp] theorem hazardRs2_withLeftovers :
    (core.withLeftovers rest).hazardRs2 = core.hazardRs2 :=
  Rob.hazard_withIdx _

include blind

theorem stallFromMem_withLeftovers :
    (core.withLeftovers rest).stallFromMem = core.stallFromMem :=
  blind.stall

theorem memToWbD_withLeftovers :
    (core.withLeftovers rest).memToWbD = core.memToWbD :=
  blind.memToWbD

theorem solvedHazard_withLeftovers (hazard : RobHazard) :
    (core.withLeftovers rest).solvedHazard hazard =
      core.solvedHazard hazard := by
  simp only [solvedHazard, forwardsFromMem,
    memToWbD_withLeftovers blind]
  rfl

theorem stall_withLeftovers :
    (core.withLeftovers rest).stall answer = core.stall answer := by
  simp only [stall, hazardRs1_withLeftovers, hazardRs2_withLeftovers,
    solvedHazard_withLeftovers blind, stallFromMem_withLeftovers blind]
  rfl

variable (harmless : core.Harmless rest)

omit blind in
include harmless in
theorem commit_withLeftovers :
    (core.withLeftovers rest).commit = core.commit :=
  Rob.commit_withIdx harmless.completed

/-- An operand that is not taken from x31 does not see the leftovers. -/
theorem operand_withLeftovers
    {hazard : RobHazard}
    {register : RegAddr}
    (solved : core.solvedHazard hazard = true)
    (same :
      hazard.hazard = false →
        rest.regfile register = core.regfile register) :
    (core.withLeftovers rest).operand hazard (rest.regfile register) =
      core.operand hazard (core.regfile register) := by
  have sameExe :
      (core.withLeftovers rest).forwardsFromExe hazard =
        core.forwardsFromExe hazard :=
    rfl
  have sameMem :
      (core.withLeftovers rest).forwardsFromMem hazard =
        core.forwardsFromMem hazard := by
    simp only [forwardsFromMem, memToWbD_withLeftovers blind]
  simp only [operand, sameExe, sameMem, memToWbD_withLeftovers blind]
  simp only [solvedHazard, Bool.or_eq_true, Bool.not_eq_true'] at solved
  cases pending : hazard.hazard with
  | false =>
      exact same pending
  | true =>
      rw [if_pos rfl, if_pos rfl]
      split
      · rfl
      · rename_i notCompleted
        split
        · rfl
        · rename_i notExe
          rw [pending] at solved
          have fromMem : core.forwardsFromMem hazard = true := by
            simpa [notCompleted, notExe] using solved
          rw [if_pos fromMem, if_pos fromMem]

include harmless

/-- Decode hands over the same instruction, with the same operands unless it
takes one of them from x31. -/
theorem decodeToExeD_withLeftovers
    (moves : core.stall answer = false)
    (reads :
      rest.regfile 31 = core.regfile 31 ∨ core.readsLast answer = false) :
    (core.withLeftovers rest).decodeToExeD answer =
      core.decodeToExeD answer := by
  have bothSolved :
      core.solvedHazard core.hazardRs1 = true ∧
        core.solvedHazard core.hazardRs2 = true := by
    simp only [stall, Bool.or_eq_false_iff, Bool.and_eq_false_iff,
      Bool.not_eq_false', Bool.and_eq_true] at moves
    rcases moves.1.1.1.1 with none | solved
    · simp [solvedHazard, none]
    · exact solved
  have sameRs1 :
      core.hazardRs1.hazard = false →
        rest.regfile core.decoded.addrRs1 =
          core.regfile core.decoded.addrRs1 := by
    intro free
    by_cases isLast : core.decoded.addrRs1 = 31
    · rcases reads with same | reads
      · rw [isLast, same]
      · simp [readsLast, moves, isLast, free] at reads
    · exact harmless.regfile _ isLast
  have sameRs2 :
      core.hazardRs2.hazard = false →
        rest.regfile core.decoded.addrRs2 =
          core.regfile core.decoded.addrRs2 := by
    intro free
    by_cases isLast : core.decoded.addrRs2 = 31
    · rcases reads with same | reads
      · rw [isLast, same]
      · simp [readsLast, moves, isLast, free] at reads
    · exact harmless.regfile _ isLast
  have operandRs1 := operand_withLeftovers blind bothSolved.1 sameRs1
  have operandRs2 := operand_withLeftovers blind bothSolved.2 sameRs2
  simp only [decodeToExeD, hazardRs1_withLeftovers,
    hazardRs2_withLeftovers, decoded_withLeftovers,
    stall_withLeftovers blind, commit_withLeftovers harmless]
  rw [← operandRs1, ← operandRs2]
  rfl

/-- What decode presents to the reorder buffer, operands aside. -/
theorem robAlloc_withLeftovers :
    (core.withLeftovers rest).robAlloc answer = core.robAlloc answer := by
  simp only [robAlloc, decodeToExeD, decoded_withLeftovers,
    stall_withLeftovers blind, commit_withLeftovers harmless]
  rfl

theorem allocates_withLeftovers :
    (core.withLeftovers rest).allocates answer = core.allocates answer :=
  congrArg RobAlloc.validDecode (robAlloc_withLeftovers blind harmless)

theorem reuses_withLeftovers :
    (core.withLeftovers rest).reuses answer = core.reuses answer := by
  simp only [reuses, allocates_withLeftovers blind harmless]
  rfl

theorem stillAlive_withLeftovers :
    (core.withLeftovers rest).stillAlive answer = core.stillAlive answer := by
  have sameWb : (core.withLeftovers rest).robWb = core.robWb := rfl
  have sameRob :
      (core.withLeftovers rest).rob = core.rob.withIdx rest.storeBufferIdx :=
    rfl
  have sameIdx :
      (core.withLeftovers rest).exeToMemQ.instr.robIdx =
        core.exeToMemQ.instr.robIdx :=
    rfl
  simp only [stillAlive, Rob.stillAlive,
    robAlloc_withLeftovers blind harmless, sameWb, sameRob, sameIdx,
    Rob.robD_withIdx]

/-- What the memory stage receives differs in the discard mask only. -/
theorem memInput_withLeftovers :
    (core.withLeftovers rest).memInput answer =
      { core.memInput answer with
        discardStoreBuffer :=
          (core.rob.withIdx rest.storeBufferIdx).discardStoreBuffer
            (core.robAlloc answer) core.robWb } := by
  simp only [memInput, stillAlive_withLeftovers blind harmless,
    commit_withLeftovers harmless, robAlloc_withLeftovers blind harmless]
  rfl

/--
A clock edge that takes no operand from x31, or finds the same in it, moves
the leftovers and nothing else.
-/
theorem clock_withLeftovers
    (reads :
      rest.regfile 31 = core.regfile 31 ∨ core.readsLast answer = false) :
    (core.withLeftovers rest).clock answer =
      (core.clock answer).withLeftovers (core.leftoversD rest answer) := by
  have sameStall :
      (core.withLeftovers rest).stall answer = core.stall answer :=
    stall_withLeftovers blind
  have sameCommit := commit_withLeftovers harmless
  have sameMem :
      (core.withLeftovers rest).mem.clock
          (core.withLeftovers rest).exeToMemQ
          ((core.withLeftovers rest).memInput answer) =
        (core.mem.clock core.exeToMemQ (core.memInput answer)).withLeftovers
          (core.leftoversD rest answer) := by
    rw [memInput_withLeftovers blind harmless]
    exact MemStage.clock_withLeftovers blind harmless.undecided _ _
  have sameRob :
      (core.withLeftovers rest).rob.clock
          ((core.withLeftovers rest).robAlloc answer)
          (core.withLeftovers rest).robWb =
        (core.rob.clock (core.robAlloc answer) core.robWb).withIdx
          (core.leftoversD rest answer).storeBufferIdx := by
    rw [robAlloc_withLeftovers blind harmless]
    exact Rob.clock_withIdx
  have sameNext :
      (core.withLeftovers rest).decodeToExeNext answer =
        core.decodeToExeNext answer := by
    have sameFromExe :
        (core.withLeftovers rest).stallFromExe = core.stallFromExe :=
      rfl
    have sameHeld :
        (core.withLeftovers rest).decodeToExeQ = core.decodeToExeQ :=
      rfl
    simp only [decodeToExeNext, sameStall, sameFromExe, sameHeld,
      stallFromMem_withLeftovers blind]
    by_cases stalled : core.stall answer = true
    · rw [stalled]
      simp only [Bool.not_true, Bool.false_eq_true, ↓reduceIte]
    · rw [Bool.not_eq_true] at stalled
      rw [decodeToExeD_withLeftovers blind harmless stalled reads]
  simp only [clock, pcD, kanataIdCounterD, sameStall, sameCommit, sameNext,
    sameMem, sameRob, stallFromMem_withLeftovers blind,
    memToWbD_withLeftovers blind]
  rfl

end Signals

/-- The leftovers stay harmless if the discard masks agree on the stores that
wait for their commit, and on all slots when a store is inserted. -/
theorem harmless_clock
    (harmless : core.Harmless rest)
    (sameMask :
      ∀ slot,
        core.mem.storeBuffer.liveAt slot = true ∨
          core.mem.storeBuffer.inserts (core.storeBufferInput answer) =
            true →
        (core.rob.withIdx rest.storeBufferIdx).discardStoreBuffer
            (core.robAlloc answer) core.robWb slot =
          (core.storeBufferInput answer).discard slot) :
    (core.clock answer).Harmless (core.leftoversD rest answer) := by
  constructor
  · intro register notLast
    change
      rest.regfile.clock _ _ _ register = core.regfile.clock _ _ _ register
    simp only [Regfile.clock, harmless.regfile register notLast]
  · intro slot completed
    change
      (core.rob.robD (core.robAlloc answer) core.robWb slot).completed = true
      at completed
    change
      core.rob.idxD core.robWb rest.storeBufferIdx slot =
        ((core.clock answer).rob.robQ slot).payload.storeBufferIdx
    rw [payload_clock, Rob.idxD]
    rw [Rob.robD_completed] at completed
    by_cases written : core.rob.writesBack core.robWb slot
    · rw [if_pos written, if_pos written]
      rfl
    · rw [if_neg written] at completed
      rw [if_neg written, if_neg written]
      by_cases allocated : core.rob.allocates (core.robAlloc answer) slot
      · rw [if_pos allocated] at completed
        cases completed
      · rw [if_neg allocated] at completed
        exact harmless.completed slot completed
  · exact StoreBuffer.undecided_clock harmless.undecided sameMask

/-- Without a flush no mask names anything. -/
theorem discardStoreBuffer_of_not_flush
    (noFlush : core.rob.flush = false)
    (slot : StoreBufferIdx) :
    (core.rob.withIdx rest.storeBufferIdx).discardStoreBuffer
        (core.robAlloc answer) core.robWb slot =
      (core.storeBufferInput answer).discard slot := by
  rw [not_discard_of_not_flush noFlush slot]
  change (core.rob.flush && _) = false
  rw [noFlush, Bool.false_and]

/-- No store is inserted in a cycle that flushes. -/
theorem not_flush_of_inserts
    (inserts :
      core.mem.storeBuffer.inserts (core.storeBufferInput answer) = true) :
    core.rob.flush = false := by
  simp only [StoreBuffer.inserts, Bool.and_eq_true] at inserts
  have alive : core.stillAlive answer = true := by
    have present := inserts.1
    change
      (MemStage.isStore core.exeToMemQ && core.stillAlive answer) = true
      at present
    rw [Bool.and_eq_true] at present
    exact present.2
  exact (Rob.robD_valid.mp alive).1

/-- The masks agree if the indices do. -/
theorem sameMask_of_sameIdx
    (sameIdx :
      ∀ slot,
        rest.storeBufferIdx slot = (core.rob.robQ slot).storeBufferIdx)
    (slot : StoreBufferIdx) :
    (core.rob.withIdx rest.storeBufferIdx).discardStoreBuffer
        (core.robAlloc answer) core.robWb slot =
      (core.storeBufferInput answer).discard slot := by
  have sameRob : core.rob.withIdx rest.storeBufferIdx = core.rob := by
    simp only [Rob.withIdx, sameIdx]
  rw [sameRob]
  rfl

/-- Indices that agree go on agreeing. -/
theorem sameIdx_clock
    (sameIdx :
      ∀ slot,
        rest.storeBufferIdx slot = (core.rob.robQ slot).storeBufferIdx)
    (slot : RobIdx) :
    (core.leftoversD rest answer).storeBufferIdx slot =
      ((core.clock answer).rob.robQ slot).storeBufferIdx := by
  change
    core.rob.idxD core.robWb rest.storeBufferIdx slot =
      ((core.clock answer).rob.robQ slot).payload.storeBufferIdx
  rw [payload_clock, Rob.idxD]
  split
  · rfl
  · exact sameIdx slot

/-- In a run that never hands out an index in use, every mask names all the
stores that wait for their commit, whatever a stale index adds. -/
theorem sameMask_of_storesKept
    {issued issuedOther : Issued}
    (blind : core.mem.CacheBlind rest core.exeToMemQ)
    (harmless : core.Harmless rest)
    (kept : core.StoresKept issued)
    (keptOther : (core.withLeftovers rest).StoresKept issuedOther)
    (slot : StoreBufferIdx)
    (relevant :
      core.mem.storeBuffer.liveAt slot = true ∨
        core.mem.storeBuffer.inserts (core.storeBufferInput answer) = true) :
    (core.rob.withIdx rest.storeBufferIdx).discardStoreBuffer
        (core.robAlloc answer) core.robWb slot =
      (core.storeBufferInput answer).discard slot := by
  rcases relevant with isLive | inserts
  · cases flushes : core.rob.flush with
    | false =>
        exact discardStoreBuffer_of_not_flush flushes slot
    | true =>
        obtain ⟨owner, buffered, isSlot⟩ := kept.buffers.owner slot isLive
        have liveOther :
            (core.withLeftovers rest).mem.storeBuffer.liveAt slot = true := by
          have parts := isLive
          simp only [StoreBuffer.liveAt, Bool.and_eq_true,
            Bool.not_eq_true'] at parts
          have sameMark :=
            harmless.undecided slot parts.1.1 parts.1.2
          change
            ((core.mem.storeBuffer.storeBufferQ slot).valid &&
                !(core.mem.storeBuffer.storeBufferQ slot).committed &&
              !rest.marks slot) = true
          rw [sameMark]
          exact isLive
        obtain ⟨ownerOther, bufferedOther, isSlotOther⟩ :=
          keptOther.buffers.owner slot liveOther
        have named :
            (core.storeBufferInput answer).discard (core.bufferSlot owner) =
              true :=
          discards_buffered kept.tracked kept.inFlight kept.stay buffered
            flushes
        have namedOther :
            ((core.withLeftovers rest).storeBufferInput answer).discard
                ((core.withLeftovers rest).bufferSlot ownerOther) =
              true :=
          discards_buffered keptOther.tracked keptOther.inFlight
            keptOther.stay bufferedOther flushes
        rw [isSlot] at named
        rw [isSlotOther] at namedOther
        have sameDiscard :
            ((core.withLeftovers rest).storeBufferInput answer).discard
                slot =
              (core.rob.withIdx rest.storeBufferIdx).discardStoreBuffer
                (core.robAlloc answer) core.robWb slot := by
          change
            ((core.withLeftovers rest).memInput answer).discardStoreBuffer
                slot =
              _
          rw [memInput_withLeftovers blind harmless]
        rw [← sameDiscard, namedOther, named]
  · exact discardStoreBuffer_of_not_flush (not_flush_of_inserts inserts)
      slot

end Datapath

end Tartaruga
