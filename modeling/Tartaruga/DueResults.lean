import Tartaruga.BufferedStores
import Tartaruga.ExeOutcome
import Tartaruga.SingleDelivery
import Tartaruga.StoreBufferBypass

namespace Tartaruga

/-!
# The results that are due

What a register between decode and write-back is going to hand to the reorder
buffer for its instruction.  It is known from the operands on, except for a
load, whose result is known once the memory stage passes it on.  All copies of
an instruction agree on it, and with the entry once it has completed.
-/

namespace StoreBuffer

variable {buffer : StoreBuffer} {input : StoreBufferInput} {addr : Bus32}
  {slot : StoreBufferIdx}

/-- Without an insertion no slot is filled. -/
theorem not_fills (noInsert : buffer.inserts input = false) :
    ¬ buffer.fills input slot := by
  rintro ⟨inserts, _⟩
  rw [noInsert] at inserts
  cases inserts

/-- A slot that is neither freed nor filled keeps what a search looks at. -/
theorem matchesAt_clock
    (noInsert : buffer.inserts input = false)
    (kept : ¬ buffer.frees input slot) :
    (buffer.clock input).matchesAt addr slot = buffer.matchesAt addr slot := by
  have notFilled : ¬ buffer.fills input slot := not_fills noInsert
  have valid :
      (buffer.storeBufferD input slot).valid =
        (buffer.storeBufferQ slot).valid := by
    rw [Bool.eq_iff_iff, storeBufferD_valid]
    simp [kept, notFilled]
  change
    ((buffer.storeBufferD input slot).valid &&
      (buffer.storeBufferD input slot).addr == addr) = _
  rw [valid, storeBufferD_addr, if_neg notFilled]
  rfl

/-- The slot that answers a load goes on answering it until it is freed. -/
theorem bypassSlot_clock
    (noInsert : buffer.inserts input = false)
    (kept : ¬ buffer.frees input slot)
    (found : buffer.bypassSlot addr = some slot) :
    (buffer.clock input).bypassSlot addr = some slot := by
  have sameTail : (buffer.clock input).tailPtrQ = buffer.tailPtrQ := by
    change buffer.tailPtrD input = _
    rw [tailPtrD, noInsert, if_neg Bool.false_ne_true]
  obtain ⟨notTail, isMatch, youngest⟩ := bypassSlot_eq_some.mp found
  rw [bypassSlot_eq_some]
  refine ⟨by rw [sameTail]; exact notTail, ?_, ?_⟩
  · rw [matchesAt_clock noInsert kept]
    exact isMatch
  · intro other younger
    rw [youngerThan, sameTail] at younger
    have before := youngest other younger
    by_cases freed : buffer.frees input other
    · have cleared : (buffer.storeBufferD input other).valid = false := by
        by_contra valid
        exact (storeBufferD_valid.mp (by simpa using valid)).1 freed
      change ((buffer.storeBufferD input other).valid && _) = false
      rw [cleared, Bool.false_and]
    · rw [matchesAt_clock noInsert freed]
      exact before

/-- And with the same data. -/
theorem dataRd_clock
    (noInsert : buffer.inserts input = false)
    (kept : ¬ buffer.frees input slot)
    (found : buffer.bypassSlot addr = some slot) :
    (buffer.clock input).dataRd addr = buffer.dataRd addr := by
  rw [dataRd, dataRd, bypassSlot_clock noInsert kept found, found]
  change (buffer.storeBufferD input slot).data = _
  rw [storeBufferD_data, if_neg (not_fills noInsert)]

end StoreBuffer

/-- The result that the memory stage will write back for an instruction, if
its own result says so. -/
def InstrData.due (instr : InstrData) (result : Bus32) : Option Bus32 :=
  match instr.wbOrigin with
  | .alu => some result
  | .mem => none
  | .pc4 => some (instr.pc + 4)
  | .mul => some 0

namespace Datapath

variable {core : Datapath} {answer : FetchAnswer} {instr other : InstrData}
  {place source target : Place} {value : Bus32}

/-- The result that the contents of a register are going to be written back
with, where it is known. -/
def due (core : Datapath) : Place → Option Bus32
  | .decodeToExe =>
      core.decodeToExeQ.instr.due (Exe.ownResult core.decodeToExeQ)
  | .exePipe stage =>
      (core.exe.exePipeQ stage.castSucc).instr.due (core.exe.delay stage)
  | .exeToMem =>
      if core.exeToMemQ.instr.wbOrigin = .mem then
        if core.memToWbD.valid then some core.memToWbD.result else none
      else
        core.exeToMemQ.instr.due core.exeToMemQ.result
  | .memToWb => some core.memToWbQ.result

/-- A load that the store buffer answers waits for the cache, and the slot
that answers it is dropped meanwhile. -/
def losesBypass (core : Datapath) : Bool :=
  (core.rob.robQ core.exeToMemQ.instr.robIdx).valid &&
    core.bypassedLoadStalls && core.mem.storeBuffer.drops &&
    core.mem.storeBuffer.bypassSlot core.exeToMemQ.result ==
      some core.mem.storeBuffer.headPtrQ

/-- What the memory stage passes on is what is due. -/
theorem due_of_finish (finishes : core.memToWbD.valid = true) :
    core.due .exeToMem = some core.memToWbD.result := by
  simp only [due, finishes, if_true]
  split
  · rfl
  · rename_i notLoad
    change _ = some (core.mem.wbResult core.exeToMemQ)
    unfold InstrData.due MemStage.wbResult
    cases origin : core.exeToMemQ.instr.wbOrigin with
    | mem => exact (notLoad origin).elim
    | _ => rfl

/-- A load that stalls although it is answered goes on being answered with the
same data. -/
theorem due_of_bypass
    (kept : core.losesBypass = false)
    (inUse : (core.rob.robQ core.exeToMemQ.instr.robIdx).valid = true)
    (shape : core.exeToMemQ.instr.Shape)
    (isLoad : core.exeToMemQ.instr.wbOrigin = .mem)
    (stalls : core.stallFromMem = true)
    (finishes : core.memToWbD.valid = true) :
    (core.clock answer).due .exeToMem = some core.memToWbD.result := by
  have valid := valid_of_memToWbD finishes
  have held := bypassedLoadStalls_of_finish shape stalls finishes
  simp only [losesBypass, inUse, held, Bool.true_and] at kept
  simp only [bypassedLoadStalls, Bool.and_eq_true, Bool.not_eq_true']
    at held
  obtain ⟨⟨_, bypassed⟩, notReady⟩ := held
  have noStore := (shape.ofLoad isLoad).1
  obtain ⟨slot, found⟩ :
      ∃ slot,
        core.mem.storeBuffer.bypassSlot core.exeToMemQ.result = some slot :=
    Option.isSome_iff_exists.mp bypassed
  have noInsert :
      core.mem.storeBuffer.inserts (core.storeBufferInput answer) = false := by
    simp [StoreBuffer.inserts, storeBufferInput, MemStage.storeBufferInput,
      MemStage.isStore, noStore]
  have stays :
      ¬ core.mem.storeBuffer.frees (core.storeBufferInput answer) slot := by
    rintro ⟨dequeues, rfl⟩
    have notHanded :
        core.mem.storeBuffer.handsOver (core.storeBufferInput answer) =
          false := by
      simp [StoreBuffer.handsOver, storeBufferInput,
        MemStage.storeBufferInput, notReady]
    rw [StoreBuffer.dequeues, notHanded, Bool.false_or] at dequeues
    rw [dequeues, found, Bool.true_and, beq_self_eq_true] at kept
    cases kept
  have sameInput : (core.clock answer).exeToMemQ = core.exeToMemQ :=
    exeToMemQ_of_stalls stalls
  have sameBuffer :
      (core.clock answer).mem.storeBuffer =
        core.mem.storeBuffer.clock (core.storeBufferInput answer) :=
    storeBuffer_clock
  have bypassedAfter :
      (core.clock answer).mem.validLoadBypass core.exeToMemQ = true := by
    simp [MemStage.validLoadBypass, valid, isLoad, MemStage.bypassFromSb,
      StoreBuffer.bypass, sameBuffer,
      StoreBuffer.bypassSlot_clock noInsert stays found]
  have bypassedBefore : core.mem.validLoadBypass core.exeToMemQ = true := by
    simp [MemStage.validLoadBypass, valid, isLoad, bypassed]
  have finishesAfter : (core.clock answer).memToWbD.valid = true := by
    simp [memToWbD, MemStage.memToWbD, sameInput, bypassedAfter]
  rw [due_of_finish finishesAfter]
  simp only [memToWbD, MemStage.memToWbD, MemStage.wbResult, sameInput,
    isLoad, bypassedAfter, bypassedBefore, if_true, sameBuffer,
    StoreBuffer.dataRd_clock noInsert stays found]

/-- A result that does not come from the memory is known in front of the memory
stage. -/
theorem due_of_notLoad
    (known : core.exeToMemQ.instr.due core.exeToMemQ.result = some value) :
    core.due .exeToMem = some value := by
  have notLoad : core.exeToMemQ.instr.wbOrigin ≠ .mem := by
    intro isLoad
    simp [InstrData.due, isLoad] at known
  rw [due, if_neg notLoad]
  exact known

/-- What execute makes of a single-cycle instruction in front of it. -/
theorem exeToMemD_of_single
    (shape : core.decodeToExeQ.instr.Shape)
    (noExe : core.stallFromExe = false)
    (entry :
      Exe.entrySlot core.decodeToExeQ.instr.exeStages = some 4) :
    core.exeToMemD.instr = core.decodeToExeQ.instr ∧
      core.exeToMemD.result = Exe.ownResult core.decodeToExeQ := by
  obtain ⟨notMul, last⟩ :=
    Exe.exePipeD_of_single shape noExe entry
  simp only [exeToMemD, Exe.exeToMemD, last, Exe.ownResult, notMul,
    Bool.false_eq_true, if_false, and_self]

/-- What execute makes of a multiplication at its end. -/
theorem exeToMemD_of_leave
    (mulPipe : core.MulPipe)
    (carries : core.Carries (.exePipe 3) instr) :
    core.exeToMemD.instr = instr ∧
      core.exeToMemD.result = core.exe.delay 3 := by
  have multiplies := mulPipe 3 instr carries
  obtain ⟨valid, rfl⟩ := carries
  have last :
      core.exe.exePipeD core.decodeToExeQ 4 = core.exe.exePipeQ 3 :=
    Exe.exePipeD_of_valid valid
  change (core.exe.exePipeQ 3).instr.isMul = true at multiplies
  constructor
  · exact congrArg DecodeToExe.instr last
  · simp only [exeToMemD, Exe.exeToMemD, last, multiplies, if_true]

/-- What is due does not change on the way into the multiplier. -/
theorem due_of_enter
    {stage : Fin 4}
    (shape : core.decodeToExeQ.instr.Shape)
    (entry :
      Exe.entrySlot core.decodeToExeQ.instr.exeStages =
        some stage.castSucc) :
    (core.clock answer).due (.exePipe stage) = core.due .decodeToExe := by
  obtain ⟨isMul, rfl⟩ := Exe.isMul_of_entrySlot shape entry
  have isMult : core.decodeToExeQ.instr.exeStages = exeStagesMult := by
    rcases shape.stages with ⟨_, isMult⟩ | ⟨notMul, _⟩
    · exact isMult
    · rw [isMul] at notMul
      cases notMul
  have enters : (core.clock answer).exe.exePipeQ 0 = core.decodeToExeQ :=
    core.exe.exePipeD_first isMult
  have product :
      (core.clock answer).exe.delay 0 = Exe.ownResult core.decodeToExeQ :=
    (Exe.ownResult_of_isMul shape isMul).symm
  change
    ((core.clock answer).exe.exePipeQ 0).instr.due
      ((core.clock answer).exe.delay 0) = _
  rw [enters, product]
  rfl

/-- Nor inside of it. -/
theorem due_of_advance
    {stage : Fin 3}
    (valid :
      (core.exe.exePipeQ stage.castSucc.castSucc).valid = true) :
    (core.clock answer).due (.exePipe stage.succ) =
      core.due (.exePipe stage.castSucc) := by
  have moves :
      (core.clock answer).exe.exePipeQ stage.succ.castSucc =
        core.exe.exePipeQ stage.castSucc.castSucc := by
    have shifted := core.exe.shifted_succ stage.castSucc
    change core.exe.exePipeD core.decodeToExeQ stage.castSucc.succ = _
    rw [← shifted] at valid ⊢
    exact Exe.exePipeD_of_valid valid
  have product :
      (core.clock answer).exe.delay stage.succ =
        core.exe.delay stage.castSucc := by
    match stage with
    | 0 | 1 | 2 => rfl
  simp only [due, moves, product]

/-- A result that is known stays the same on the way to the next register. -/
theorem due_of_feeds
    (mulPipe : core.MulPipe)
    (kept : core.losesBypass = false)
    (shape : instr.Shape)
    (inUse : (core.rob.robQ instr.robIdx).valid = true)
    (carries : core.Carries source instr)
    (feeds : core.Feeds source target)
    (known : core.due source = some value) :
    (core.clock answer).due target = some value := by
  cases feeds with
  | holdExe held =>
      have stays : (core.clock answer).decodeToExeQ = core.decodeToExeQ :=
        decodeToExeQ_of_held held
      simp only [due, stays]
      exact known
  | enter stage entry =>
      obtain ⟨_, rfl⟩ := carries
      rw [due_of_enter shape entry]
      exact known
  | advance stage =>
      rw [due_of_advance carries.1]
      exact known
  | single moves noExe entry =>
      obtain ⟨_, rfl⟩ := carries
      obtain ⟨sameInstr, sameResult⟩ :=
        exeToMemD_of_single shape noExe entry
      have next : (core.clock answer).exeToMemQ = core.exeToMemD :=
        exeToMemQ_of_moves moves
      apply due_of_notLoad
      · rw [next, sameInstr, sameResult]
        exact known
  | leave moves =>
      obtain ⟨sameInstr, sameResult⟩ := exeToMemD_of_leave mulPipe carries
      obtain ⟨_, rfl⟩ := carries
      have next : (core.clock answer).exeToMemQ = core.exeToMemD :=
        exeToMemQ_of_moves moves
      apply due_of_notLoad
      · rw [next, sameInstr, sameResult]
        exact known
  | holdMem stalls =>
      have stays : (core.clock answer).exeToMemQ = core.exeToMemQ :=
        exeToMemQ_of_stalls stalls
      obtain ⟨_, rfl⟩ := carries
      by_cases isLoad : core.exeToMemQ.instr.wbOrigin = .mem
      · have finishes : core.memToWbD.valid = true := by
          by_contra notYet
          simp [due, isLoad, notYet] at known
        rw [due_of_finish finishes] at known
        rw [due_of_bypass kept inUse shape isLoad stalls finishes]
        exact known
      · simp only [due, stays, if_neg isLoad] at known ⊢
        exact known
  | finish finishes =>
      rw [due_of_finish finishes] at known
      exact known

/-- A register whose result is not known feeds one other register at most. -/
theorem Feeds.unique_of_unknown
    {first second : Place}
    (mulPipe : core.MulPipe)
    (shape : instr.Shape)
    (carries : core.Carries source instr)
    (unknown : core.due source = none)
    (toFirst : core.Feeds source first)
    (toSecond : core.Feeds source second) :
    first = second := by
  have isLoad :
      ∀ result, instr.due result = none → instr.wbOrigin = .mem := by
    intro result unknown
    unfold InstrData.due at unknown
    split at unknown
    · cases unknown
    · assumption
    · cases unknown
    · cases unknown
  cases source with
  | decodeToExe =>
      obtain ⟨valid, rfl⟩ := carries
      have notMul := (shape.ofLoad (isLoad _ unknown)).2.1
      have notHeld : core.mulHeld = false := by
        rw [mulHeld, show core.decodeToExeQ.instr.isMul = false from notMul,
          Bool.and_false]
      rw [toFirst.target_of_decodeToExe notHeld valid shape,
        toSecond.target_of_decodeToExe notHeld valid shape]
  | exePipe stage =>
      have multiplies := mulPipe stage instr carries
      obtain ⟨_, rfl⟩ := carries
      have origin := (shape.ofMul multiplies).1
      rw [isLoad _ unknown] at origin
      cases origin
  | exeToMem =>
      have notYet : core.memToWbD.valid ≠ true := by
        intro finishes
        rw [due_of_finish finishes] at unknown
        cases unknown
      cases toFirst with
      | holdMem _ =>
          cases toSecond with
          | holdMem _ => rfl
          | finish finishes => exact (notYet finishes).elim
      | finish finishes => exact (notYet finishes).elim
  | memToWb =>
      cases unknown

/-- The copies of an instruction whose entry is in use agree on the result, and
so does the entry once it has completed. -/
structure Agreeing (core : Datapath) : Prop where
  copies :
    ∀ {place second instr other},
      core.Carries place instr →
      core.Carries second other →
      instr.robIdx = other.robIdx →
      (core.rob.robQ instr.robIdx).valid = true →
      place = second ∨
        ∃ value, core.due place = some value ∧ core.due second = some value
  completed :
    ∀ {place instr},
      core.Carries place instr →
      (core.rob.robQ instr.robIdx).valid = true →
      (core.rob.robQ instr.robIdx).completed = true →
      core.due place = some (core.rob.robQ instr.robIdx).result

/-- Nothing is carried after reset. -/
theorem agreeing_reset (core : Datapath) : core.reset.Agreeing where
  copies carries := (not_carries_reset core carries).elim
  completed carries := (not_carries_reset core carries).elim

/-- What is carried for an entry in use after the edge was carried for it
before, or has just been allocated. -/
theorem carries_clock_survives
    (noReuse : core.reuses answer = false)
    (carries : (core.clock answer).Carries place instr)
    (valid : ((core.clock answer).rob.robQ instr.robIdx).valid = true) :
    (place = .decodeToExe ∧
        core.rob.allocates (core.robAlloc answer) instr.robIdx) ∨
      (core.Survives answer instr.robIdx ∧
        ∃ source, core.Feeds source place ∧ core.Carries source instr) := by
  rcases carries_clock carries with
    ⟨isFirst, allocated, rfl⟩ | ⟨source, feeds, before⟩
  · exact .inl ⟨isFirst, allocated, decoded_robIdx⟩
  · rcases survives_or_allocated valid with survives | allocated
    · exact .inr ⟨survives, source, feeds, before⟩
    · exact (robIdx_ne_tail noReuse allocated.1 feeds.source_ne_memToWb
        before allocated.2).elim

/-- A completed entry that survives the edge had completed with that result,
or it has just been written back with it. -/
theorem Survives.completed_clock
    {slot : RobIdx}
    (survives : core.Survives answer slot)
    (completed : ((core.clock answer).rob.robQ slot).completed = true) :
    (core.rob.writesBack core.robWb slot ∧
        ((core.clock answer).rob.robQ slot).result =
          core.memToWbQ.result) ∨
      (core.rob.robQ slot).completed = true ∧
        ((core.clock answer).rob.robQ slot).result =
          (core.rob.robQ slot).result := by
  have payload : ((core.clock answer).rob.robQ slot).payload = _ :=
    payload_clock
  change
    (core.rob.robD (core.robAlloc answer) core.robWb slot).completed = true
    at completed
  rw [Rob.robD_completed, if_neg survives.2.2.1] at completed
  by_cases written : core.rob.writesBack core.robWb slot
  · rw [if_pos written] at payload
    exact .inl ⟨written, congrArg RobPayload.result payload⟩
  · rw [if_neg written] at payload completed
    exact .inr ⟨completed, congrArg RobPayload.result payload⟩

/-- A write-back comes from the write-back register. -/
theorem carries_of_writesBack
    {slot : RobIdx}
    (written : core.rob.writesBack core.robWb slot) :
    core.Carries .memToWb core.memToWbQ.instr ∧
      core.memToWbQ.instr.robIdx = slot := by
  obtain ⟨accepted, isSlot⟩ := written
  simp only [Rob.acceptsWb, Bool.and_eq_true] at accepted
  exact ⟨⟨accepted.1, rfl⟩, isSlot.symm⟩

/-- The agreement survives every cycle that hands out no index in use and does
not drop the slot that answers a waiting load. -/
theorem agreeing_clock
    (tracked : core.Tracked)
    (agreeing : core.Agreeing)
    (noReuse : core.reuses answer = false)
    (kept : core.losesBypass = false) :
    (core.clock answer).Agreeing := by
  have passedOn
      {source target : Place}
      {instr : InstrData}
      {value : Bus32}
      (inUse : (core.rob.robQ instr.robIdx).valid = true)
      (before : core.Carries source instr)
      (feeds : core.Feeds source target)
      (known : core.due source = some value) :
      (core.clock answer).due target = some value :=
    due_of_feeds tracked.mulPipe kept (tracked.shaped source instr before)
      inUse before feeds known
  constructor
  · intro place second instr other carries carriesSecond sameIdx valid
    rcases carries_clock_survives noReuse carries valid with
      ⟨isFirst, allocated⟩ | ⟨survives, source, feeds, before⟩
    · rcases carries_clock_survives noReuse carriesSecond
        (sameIdx ▸ valid) with
        ⟨isFirstToo, _⟩ | ⟨survives, _⟩
      · exact .inl (isFirst.trans isFirstToo.symm)
      · exact (survives.2.2.1 (sameIdx ▸ allocated)).elim
    · rcases carries_clock_survives noReuse carriesSecond
        (sameIdx ▸ valid) with
        ⟨_, allocated⟩ | ⟨_, sourceSecond, feedsSecond, beforeSecond⟩
      · exact (survives.2.2.1 (sameIdx ▸ allocated)).elim
      · rcases agreeing.copies before beforeSecond sameIdx survives.2.2.2
          with rfl | ⟨value, known, knownSecond⟩
        · cases known : core.due source with
          | none =>
              exact .inl (Feeds.unique_of_unknown tracked.mulPipe
                (tracked.shaped source instr before) before known feeds
                feedsSecond)
          | some value =>
              exact .inr ⟨value,
                passedOn survives.2.2.2 before feeds known,
                passedOn survives.2.2.2 before feedsSecond known⟩
        · exact .inr ⟨value, passedOn survives.2.2.2 before feeds known,
            passedOn (sameIdx ▸ survives.2.2.2) beforeSecond feedsSecond
              knownSecond⟩
  · intro place instr carries valid completed
    rcases carries_clock_survives noReuse carries valid with
      ⟨_, allocated⟩ | ⟨survives, source, feeds, before⟩
    · rw [not_completed_of_allocates tracked.window allocated] at completed
      cases completed
    · rcases survives.completed_clock completed with
        ⟨written, result⟩ | ⟨completedBefore, result⟩
      · obtain ⟨writing, isSlot⟩ := carries_of_writesBack written
        rw [result]
        rcases agreeing.copies before writing isSlot.symm
          survives.2.2.2 with
          rfl | ⟨value, known, knownWriting⟩
        · exact (feeds.source_ne_memToWb rfl).elim
        · rw [passedOn survives.2.2.2 before feeds known, ← knownWriting]
          rfl
      · rw [result]
        exact passedOn survives.2.2.2 before feeds
          (agreeing.completed before survives.2.2.2 completedBefore)

end Datapath

end Tartaruga
