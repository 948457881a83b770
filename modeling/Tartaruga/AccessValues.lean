import Tartaruga.AccessOrder
import Tartaruga.MemoryMachine

namespace Tartaruga

/-!
# What the registers hold for loads and stores

In front of execute and behind it a store keeps its operand beside its address.
The memory stage passes on what the machine computes, provided that a load is
answered with the word of the machine's memory.
-/

/-- What is written back is what the machine computes. -/
structure RobPayload.Computes
    (payload : RobPayload)
    (word : Bus32 → Bus32)
    (reference : MemoryMachine) :
    Prop where
  result : payload.result = reference.result word
  branchTaken : payload.branchTaken = reference.front.taken word
  newPc :
    reference.front.taken word = true →
    payload.newPc = reference.front.target word

namespace Datapath

variable {core : Datapath} {answer : FetchAnswer} {instr : InstrData}
  {source target : Place} {word : Bus32 → Bus32} {reference : MemoryMachine}

/-- The operand of a store, if the machine is in front of one. -/
def KeepsOperand
    (word : Bus32 → Bus32)
    (reference : MemoryMachine)
    (dataRs2 : Bus32) :
    Prop :=
  (reference.front.decoded word).storeToMem = true →
  dataRs2 = (reference.front.input word).dataRs2

/-- The register holds for its instruction what the machine computes. -/
def HoldsAccess
    (core : Datapath)
    (word : Bus32 → Bus32)
    (reference : MemoryMachine) :
    Place → Prop
  | .decodeToExe =>
      core.Holds word reference.front .decodeToExe ∧
        KeepsOperand word reference core.decodeToExeQ.dataRs2
  | .exePipe stage => core.Holds word reference.front (.exePipe stage)
  | .exeToMem =>
      core.Holds word reference.front .exeToMem ∧
        KeepsOperand word reference core.exeToMemQ.dataRs2
  | .memToWb => core.robWb.payload.Computes word reference

/-- What the decoder says about an instruction, it says about the next one of
the machine. -/
theorem decoded_of_isNext (isNext : instr.IsNext word reference.front) :
    (reference.front.decoded word).isMul = instr.isMul ∧
      (reference.front.decoded word).wbOrigin = instr.wbOrigin ∧
      (reference.front.decoded word).storeToMem = instr.storeToMem ∧
      instr.pc = reference.pc := by
  obtain ⟨robIdx, idDecode, same⟩ :=
    SequentialMachine.relabelled_of_isNext isNext
  have labels :
      ∀ data : InstrData,
        data.isMul = (data.relabelled data.pc robIdx idDecode).isMul ∧
          data.wbOrigin =
            (data.relabelled data.pc robIdx idDecode).wbOrigin ∧
          data.storeToMem =
            (data.relabelled data.pc robIdx idDecode).storeToMem :=
    fun _ => ⟨rfl, rfl, rfl⟩
  obtain ⟨sameMul, sameOrigin, sameStore⟩ :=
    labels (reference.front.decoded word)
  have samePc : instr.pc = reference.pc := by
    rw [same, InstrData.relabelled_pc, SequentialMachine.decoded_pc]
  rw [← same] at sameMul sameOrigin sameStore
  exact ⟨sameMul, sameOrigin, sameStore, samePc⟩

/-- A single cycle leaves execute with its operand. -/
theorem holdsAccess_single
    (shape : instr.Shape)
    (carries : core.Carries .decodeToExe instr)
    (moves : core.stallFromMem = false)
    (noExe : core.stallFromExe = false)
    (entry :
      Exe.entrySlot core.decodeToExeQ.instr.exeStages = some 4)
    (isNext : instr.IsNext word reference.front)
    (holds : core.HoldsAccess word reference .decodeToExe) :
    (core.clock answer).HoldsAccess word reference .exeToMem := by
  refine
    ⟨holds_single shape carries moves noExe entry isNext holds.1, ?_⟩
  obtain ⟨_, rfl⟩ := carries
  have last := (Exe.exePipeD_of_single shape noExe entry).2
  rw [exeToMemQ_of_moves moves]
  intro stores
  have kept :
      core.exeToMemD.dataRs2 = core.decodeToExeQ.dataRs2 :=
    congrArg DecodeToExe.dataRs2 last
  rw [kept]
  exact holds.2 stores

/-- A product leaves execute, and is no store. -/
theorem holdsAccess_leave
    (pipesMul : core.PipesMul)
    (shape : instr.Shape)
    (carries : core.Carries (.exePipe 3) instr)
    (moves : core.stallFromMem = false)
    (isNext : instr.IsNext word reference.front)
    (holds : core.HoldsAccess word reference (.exePipe 3)) :
    (core.clock answer).HoldsAccess word reference .exeToMem := by
  obtain ⟨sameMul, _, sameStore, _⟩ := decoded_of_isNext isNext
  refine ⟨holds_leave pipesMul shape carries moves sameMul holds, ?_⟩
  intro stores
  have noStore := (shape.ofMul (pipesMul 3 instr carries)).2.1
  rw [← sameStore, stores] at noStore
  cases noStore

/-- The memory stage passes on what the machine computes. -/
theorem holdsAccess_finish
    (carries : core.Carries .exeToMem instr)
    (isNext : instr.IsNext word reference.front)
    (answered :
      instr.wbOrigin = .mem →
      core.mem.wbResult core.exeToMemQ =
        reference.memory.readMem core.exeToMemQ.result)
    (holds : core.HoldsAccess word reference .exeToMem) :
    (core.clock answer).HoldsAccess word reference .memToWb := by
  obtain ⟨sameMul, sameOrigin, _, samePc⟩ := decoded_of_isNext isNext
  obtain ⟨_, rfl⟩ := carries
  change _ = core.exeToMemQ.instr.wbOrigin at sameOrigin
  obtain ⟨⟨sameResult, sameTaken⟩, _⟩ := holds
  refine ⟨?_, sameTaken, ?_⟩
  · change core.mem.wbResult core.exeToMemQ = reference.result word
    cases origin : core.exeToMemQ.instr.wbOrigin with
    | alu =>
        have noLoad : ¬ reference.Loads word := by
          simp [MemoryMachine.Loads, sameOrigin, origin]
        have notPc4 : (reference.front.decoded word).wbOrigin ≠ .pc4 := by
          simp [sameOrigin, origin]
        rw [MemoryMachine.result, if_neg noLoad, SequentialMachine.result,
          if_neg notPc4, ← sameResult]
        simp only [MemStage.wbResult, origin]
    | mem =>
        have isLoad : reference.Loads word := sameOrigin.trans origin
        have address := (MemoryMachine.of_access (.inl isLoad)).1
        rw [answered origin, sameResult, address, MemoryMachine.result,
          if_pos isLoad]
    | pc4 =>
        have noLoad : ¬ reference.Loads word := by
          simp [MemoryMachine.Loads, sameOrigin, origin]
        have isPc4 : (reference.front.decoded word).wbOrigin = .pc4 :=
          sameOrigin.trans origin
        rw [MemoryMachine.result, if_neg noLoad, SequentialMachine.result,
          if_pos isPc4]
        simp only [MemStage.wbResult, origin]
        exact congrArg (· + 4) samePc
    | mul =>
        have never : (reference.front.decoded word).wbOrigin ≠ .mul :=
          decoder_wbOrigin _ _ _ _
        exact (never (sameOrigin.trans origin)).elim
  · intro taken
    have notMul : (reference.front.decoded word).isMul = false := by
      by_contra isMul
      have notTaken :=
        (SequentialMachine.of_isMul (Bool.not_eq_false _ ▸ isMul)).2
      rw [taken] at notTaken
      cases notTaken
    change
      (if core.exeToMemQ.branchTaken then core.exeToMemQ.result else 0) =
        reference.front.target word
    rw [sameTaken, taken, if_pos rfl, sameResult,
      SequentialMachine.ownResult_of_not_mul notMul]

/-- A clock edge passes the values of an instruction on with it. -/
theorem holdsAccess_of_feeds
    (pipesMul : core.PipesMul)
    (shape : instr.Shape)
    (isNext : instr.IsNext word reference.front)
    (carries : core.Carries source instr)
    (feeds : core.Feeds source target)
    (answered :
      source = .exeToMem →
      target = .memToWb →
      instr.wbOrigin = .mem →
      core.mem.wbResult core.exeToMemQ =
        reference.memory.readMem core.exeToMemQ.result)
    (holds : core.HoldsAccess word reference source) :
    (core.clock answer).HoldsAccess word reference target := by
  have sameMul := (decoded_of_isNext isNext).1
  cases feeds with
  | holdExe held =>
      have stays : (core.clock answer).decodeToExeQ = core.decodeToExeQ :=
        decodeToExeQ_of_held held
      simp only [HoldsAccess, Holds, stays]
      exact holds
  | enter stage entry =>
      exact holds_enter stage shape carries entry sameMul holds.1
  | advance stage =>
      have product :
          core.Holds word reference.front (.exePipe stage.castSucc) :=
        holds
      have next :
          (core.clock answer).Holds word reference.front
            (.exePipe stage.succ) :=
        holds_advance stage product
      exact next
  | single moves noExe entry =>
      exact
        holdsAccess_single shape carries moves noExe entry isNext holds
  | leave moves =>
      exact holdsAccess_leave pipesMul shape carries moves isNext holds
  | holdMem stalls =>
      have stays : (core.clock answer).exeToMemQ = core.exeToMemQ :=
        exeToMemQ_of_stalls stalls
      simp only [HoldsAccess, Holds, stays]
      exact holds
  | finish _ =>
      exact
        holdsAccess_finish carries isNext (answered rfl rfl) holds

end Datapath

end Tartaruga
