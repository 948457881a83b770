import Tartaruga.RegisterPipeline
import Tartaruga.RobHazard
import Tartaruga.SequentialMachine

namespace Tartaruga

/-!
# What the registers hold for an instruction

Each register that carries an instruction holds what the sequential machine
computes for it: the operands in front of execute, the product in the
multiplier, the result behind it.  A clock edge that passes the instruction on
passes these values on.
-/

/-- The instruction is the next one of the machine, under other labels. -/
def InstrData.IsNext
    (data : InstrData)
    (word : Bus32 → Bus32)
    (reference : SequentialMachine) :
    Prop :=
  ∃ robIdx idDecode,
    data = decoder reference.pc (word reference.pc) robIdx idDecode

/-- What is written back is what the machine computes. -/
structure RobPayload.Agrees
    (payload : RobPayload)
    (word : Bus32 → Bus32)
    (reference : SequentialMachine) :
    Prop where
  result : payload.result = reference.result word
  branchTaken : payload.branchTaken = reference.taken word
  newPc :
    reference.taken word = true → payload.newPc = reference.target word

namespace SequentialMachine

variable {word : Bus32 → Bus32} {reference : SequentialMachine}
  {instr : InstrData}

theorem decoded_pc : (reference.decoded word).pc = reference.pc :=
  decoder_pc _ _ _ _

/-- The next instruction is the decoded one but for its labels. -/
theorem relabelled_of_isNext (isNext : instr.IsNext word reference) :
    ∃ robIdx idDecode,
      instr =
        (reference.decoded word).relabelled (reference.decoded word).pc robIdx
          idDecode := by
  obtain ⟨robIdx, idDecode, rfl⟩ := isNext
  refine ⟨robIdx, idDecode, ?_⟩
  rw [decoded_pc]
  exact
    decoder_relabelled reference.pc (word reference.pc) robIdx idDecode
      reference.pc

/-- The machine computes the target of a branch, and every result that is not
a product, with the arithmetic unit. -/
theorem ownResult_of_not_mul
    (notMul : (reference.decoded word).isMul = false) :
    Exe.ownResult (reference.input word) = reference.target word := by
  have single : (reference.input word).instr.isMul = false := notMul
  rw [Exe.ownResult, single]
  rfl

/-- A multiplication multiplies and does not branch. -/
theorem of_isMul (isMul : (reference.decoded word).isMul = true) :
    Exe.ownResult (reference.input word) =
        Exe.aluDataRs1 (reference.input word) *
          Exe.aluDataRs2 (reference.input word) ∧
      reference.taken word = false := by
  have multiplies : (reference.input word).instr.isMul = true := isMul
  have shape : (reference.input word).instr.Shape := decoder_shape _ _ _ _
  have noJump : (reference.input word).instr.jumpKind = .bnone :=
    (shape.ofMul isMul).2.2
  constructor
  · exact Exe.ownResult_of_isMul shape multiplies
  · rw [taken, Exe.takenBranch, noJump]
    rfl

/-- A jump is taken. -/
theorem taken_of_pc4
    (program : RegisterProgram word)
    (jumps : (reference.decoded word).wbOrigin = .pc4) :
    reference.taken word = true := by
  have only : (reference.decoded word).RegisterOnly :=
    program.registerOnly _ _ _
  rcases only.origin with isAlu | ⟨_, isJump⟩
  · rw [isAlu] at jumps
    cases jumps
  · have kind : (reference.input word).instr.jumpKind = .jump := isJump
    rw [taken, Exe.takenBranch, kind]
    rfl

/-- An instruction that is not taken leaves the result of execute. -/
theorem result_of_not_taken
    (program : RegisterProgram word)
    (notTaken : reference.taken word = false) :
    reference.result word = Exe.ownResult (reference.input word) := by
  refine if_neg ?_
  intro jumps
  rw [taken_of_pc4 program jumps] at notTaken
  cases notTaken

end SequentialMachine

namespace Datapath

variable {core : Datapath} {answer : FetchAnswer} {instr : InstrData}
  {place source target : Place} {word : Bus32 → Bus32}
  {reference : SequentialMachine}

/-- The register holds for its instruction what the machine computes. -/
def Holds
    (core : Datapath)
    (word : Bus32 → Bus32)
    (reference : SequentialMachine) :
    Place → Prop
  | .decodeToExe =>
      Exe.SameOperands core.decodeToExeQ (reference.input word)
  | .exePipe stage =>
      core.exe.delay stage = Exe.ownResult (reference.input word)
  | .exeToMem =>
      core.exeToMemQ.result = Exe.ownResult (reference.input word) ∧
        core.exeToMemQ.branchTaken = reference.taken word
  | .memToWb => core.robWb.payload.Agrees word reference

/-- A multiplication enters the multiplier with its operands. -/
theorem holds_enter
    (stage : Fin 4)
    (shape : instr.Shape)
    (carries : core.Carries .decodeToExe instr)
    (entry :
      Exe.entrySlot core.decodeToExeQ.instr.exeStages =
        some stage.castSucc)
    (isMul : (reference.decoded word).isMul = instr.isMul)
    (holds : core.Holds word reference .decodeToExe) :
    (core.clock answer).Holds word reference (.exePipe stage) := by
  obtain ⟨_, rfl⟩ := carries
  obtain ⟨multiplies, rfl⟩ := Exe.isMul_of_entrySlot shape entry
  have operands : Exe.SameOperands core.decodeToExeQ (reference.input word) :=
    holds
  have product := (SequentialMachine.of_isMul (isMul.trans multiplies)).1
  change
    Exe.aluDataRs1 core.decodeToExeQ * Exe.aluDataRs2 core.decodeToExeQ =
      Exe.ownResult (reference.input word)
  rw [product, operands.aluData.1, operands.aluData.2]

/-- A product moves on in the multiplier. -/
theorem holds_advance
    (stage : Fin 3)
    (holds : core.Holds word reference (.exePipe stage.castSucc)) :
    (core.clock answer).Holds word reference (.exePipe stage.succ) := by
  match stage with
  | 0 | 1 | 2 => exact holds

/-- The result of a single cycle leaves execute. -/
theorem holds_single
    (shape : instr.Shape)
    (carries : core.Carries .decodeToExe instr)
    (moves : core.stallFromMem = false)
    (noExe : core.stallFromExe = false)
    (entry :
      Exe.entrySlot core.decodeToExeQ.instr.exeStages = some 4)
    (isNext : instr.IsNext word reference)
    (holds : core.Holds word reference .decodeToExe) :
    (core.clock answer).Holds word reference .exeToMem := by
  obtain ⟨robIdx, idDecode, same⟩ :=
    SequentialMachine.relabelled_of_isNext isNext
  obtain ⟨valid, rfl⟩ := carries
  change core.decodeToExeQ.valid = true at valid
  change core.decodeToExeQ.instr.Shape at shape
  change core.decodeToExeQ.instr = _ at same
  have operands : Exe.SameOperands core.decodeToExeQ (reference.input word) :=
    holds
  obtain ⟨notMul, last⟩ := Exe.exePipeD_of_single shape noExe entry
  have sameKind :
      core.decodeToExeQ.instr.jumpKind =
        (reference.decoded word).jumpKind := by
    rw [same, InstrData.relabelled_jumpKind]
  have notMulNext : (reference.decoded word).isMul = false := by
    rw [← notMul, same, InstrData.relabelled_isMul]
  simp only [Holds, exeToMemQ_of_moves moves, exeToMemD, Exe.exeToMemD,
    last, notMul, valid, Bool.and_true, Bool.false_eq_true, if_false]
  constructor
  · rw [SequentialMachine.ownResult_of_not_mul notMulNext,
      operands.resAlu]
    rfl
  · rw [operands.takenBranch]
    cases kind : core.decodeToExeQ.instr.jumpKind with
    | bnone =>
        have noJump : (reference.input word).instr.jumpKind = .bnone :=
          sameKind.symm.trans kind
        simp only [SequentialMachine.taken, Exe.takenBranch, noJump]
        rfl
    | _ =>
        exact Bool.and_true _

/-- The product of a multiplication leaves execute. -/
theorem holds_leave
    (pipesMul : core.PipesMul)
    (shape : instr.Shape)
    (carries : core.Carries (.exePipe 3) instr)
    (moves : core.stallFromMem = false)
    (isMul : (reference.decoded word).isMul = instr.isMul)
    (holds : core.Holds word reference (.exePipe 3)) :
    (core.clock answer).Holds word reference .exeToMem := by
  have multiplies := pipesMul 3 instr carries
  obtain ⟨valid, rfl⟩ := carries
  change (core.exe.exePipeQ 3).valid = true at valid
  change (core.exe.exePipeQ 3).instr.isMul = true at multiplies
  have noJump : (core.exe.exePipeQ 3).instr.jumpKind = .bnone :=
    (shape.ofMul multiplies).2.2
  have last :
      core.exe.exePipeD core.decodeToExeQ 4 = core.exe.exePipeQ 3 :=
    Exe.exePipeD_of_valid valid
  have notTaken := (SequentialMachine.of_isMul (isMul.trans multiplies)).2
  simp only [Holds, exeToMemQ_of_moves moves, exeToMemD, Exe.exeToMemD,
    last, multiplies, noJump, notTaken, if_true]
  exact ⟨holds, by simp⟩

/-- The memory stage passes a result on. -/
theorem holds_finish
    (program : RegisterProgram word)
    (carries : core.Carries .exeToMem instr)
    (isNext : instr.IsNext word reference)
    (holds : core.Holds word reference .exeToMem) :
    (core.clock answer).Holds word reference .memToWb := by
  obtain ⟨robIdx, idDecode, same⟩ :=
    SequentialMachine.relabelled_of_isNext isNext
  obtain ⟨_, rfl⟩ := carries
  change core.exeToMemQ.instr = _ at same
  obtain ⟨sameResult, sameTaken⟩ := holds
  have only : (reference.decoded word).RegisterOnly :=
    program.registerOnly _ _ _
  have origin :
      core.exeToMemQ.instr.wbOrigin = (reference.decoded word).wbOrigin := by
    rw [same, InstrData.relabelled_wbOrigin]
  have samePc : core.exeToMemQ.instr.pc = reference.pc := by
    rw [same, InstrData.relabelled_pc, SequentialMachine.decoded_pc]
  refine ⟨?_, sameTaken, ?_⟩
  · change core.mem.wbResult core.exeToMemQ = reference.result word
    rcases only.origin with isAlu | ⟨isPc4, _⟩
    · have notPc4 : (reference.decoded word).wbOrigin ≠ .pc4 := by
        rw [isAlu]
        nofun
      rw [isAlu] at origin
      simp only [MemStage.wbResult, origin, SequentialMachine.result,
        if_neg notPc4]
      exact sameResult
    · rw [isPc4] at origin
      simp only [MemStage.wbResult, origin, SequentialMachine.result,
        if_pos isPc4, samePc]
  · intro taken
    have notMul : (reference.decoded word).isMul = false := by
      by_contra isMul
      have notTaken :=
        (SequentialMachine.of_isMul (Bool.not_eq_false _ ▸ isMul)).2
      rw [taken] at notTaken
      cases notTaken
    change
      (if core.exeToMemQ.branchTaken then core.exeToMemQ.result else 0) =
        reference.target word
    rw [sameTaken, taken, if_pos rfl, sameResult,
      SequentialMachine.ownResult_of_not_mul notMul]

/-- A clock edge passes the values of an instruction on with it. -/
theorem holds_of_feeds
    (program : RegisterProgram word)
    (pipesMul : core.PipesMul)
    (noMem : core.stallFromMem = false)
    (shape : instr.Shape)
    (isNext : instr.IsNext word reference)
    (carries : core.Carries source instr)
    (feeds : core.Feeds source target)
    (holds : core.Holds word reference source) :
    (core.clock answer).Holds word reference target := by
  have isMul : (reference.decoded word).isMul = instr.isMul := by
    obtain ⟨robIdx, idDecode, same⟩ :=
      SequentialMachine.relabelled_of_isNext isNext
    rw [same, InstrData.relabelled_isMul]
  cases feeds with
  | holdExe held =>
      have stays : (core.clock answer).decodeToExeQ = core.decodeToExeQ :=
        decodeToExeQ_of_held held
      simp only [Holds, stays]
      exact holds
  | enter stage entry =>
      exact holds_enter stage shape carries entry isMul holds
  | advance stage =>
      exact holds_advance stage holds
  | single moves noExe entry =>
      exact holds_single shape carries moves noExe entry isNext holds
  | leave moves =>
      exact holds_leave pipesMul shape carries moves isMul holds
  | holdMem stalls =>
      rw [noMem] at stalls
      cases stalls
  | finish _ =>
      exact holds_finish program carries isNext holds

end Datapath

end Tartaruga
