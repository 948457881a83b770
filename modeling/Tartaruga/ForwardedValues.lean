import Tartaruga.DueResults
import Tartaruga.RobHazard

namespace Tartaruga

/-!
# Forwarded values

Decode takes the value of a pending writer from the output of execute, from
the output of memory or from a completed entry.  The value is the one that the
writer commits, unless it is the target of a jump: the link is chosen in the
memory stage only.
-/

/-- The two sources of an instruction. -/
inductive SourcePort where
  | rs1
  | rs2
  deriving Repr, DecidableEq

namespace Datapath

variable {core : Datapath} {answer : FetchAnswer} {instr : InstrData}
  {place : Place} {port : SourcePort} {id : Nat} {slot : RobIdx}
  {value result : Bus32}

/-- The hazard search of a source. -/
def hazardOf (core : Datapath) : SourcePort → RobHazard
  | .rs1 => core.hazardRs1
  | .rs2 => core.hazardRs2

/-- The operand that decode hands to execute. -/
def operandOf
    (core : Datapath)
    (answer : FetchAnswer) :
    SourcePort → Bus32
  | .rs1 => (core.decodeToExeD answer).dataRs1
  | .rs2 => (core.decodeToExeD answer).dataRs2

/-- Decode takes the value of a pending writer for an instruction that it
passes on. -/
structure Takes
    (core : Datapath)
    (answer : FetchAnswer)
    (port : SourcePort)
    (id : Nat)
    (value : Bus32) :
    Prop where
  passes : core.allocates answer = true
  pending : (core.hazardOf port).hazard = true
  writer : (core.rob.robQ (core.hazardOf port).robEntry).kanataId = id
  operand : core.operandOf answer port = value

/-- An instruction commits a result. -/
structure Commits (core : Datapath) (id : Nat) (result : Bus32) : Prop where
  valid : core.commit.valid = true
  instruction : core.commit.kanataId = id
  result : core.commit.result = result

/-- The pending writer is a jump at the output of execute, where its target
stands in place of its link. -/
def takesTarget (core : Datapath) (port : SourcePort) : Bool :=
  !(core.hazardOf port).completed &&
    core.forwardsFromExe (core.hazardOf port) &&
    core.exeToMemD.instr.wbOrigin == .pc4 &&
    !(core.exeToMemD.result == core.exeToMemD.instr.pc + 4)

/-- Decode hands out an index in use, or a waiting load loses the slot of the
store buffer that has answered it. -/
def mixesUp (core : Datapath) (answer : FetchAnswer) : Bool :=
  core.reuses answer || core.losesBypass

/-- What is known of the results in a run that mixes nothing up. -/
structure Accounted (core : Datapath) : Prop where
  tracked : core.Tracked
  agreeing : core.Agreeing
  sameEntry :
    ∀ slot other,
      (core.rob.robQ slot).valid = true →
      (core.rob.robQ other).valid = true →
      (core.rob.robQ slot).kanataId = (core.rob.robQ other).kanataId →
      slot = other
  origins :
    ∀ place instr, core.Carries place instr → instr.wbOrigin ≠ .mul

/-- Nothing is in flight after reset. -/
theorem accounted_reset (core : Datapath) : core.reset.Accounted where
  tracked := tracked_reset core
  agreeing := agreeing_reset core
  sameEntry _ _ valid := by cases valid
  origins _ _ carries := (not_carries_reset core carries).elim

/-- An allocated entry has the next identifier. -/
theorem kanataId_of_allocates
    (tracked : core.Tracked)
    (allocated : core.rob.allocates (core.robAlloc answer) slot) :
    ((core.clock answer).rob.robQ slot).kanataId = core.nextId :=
  (congrArg RobOwn.kanataId (own_of_allocates allocated)).trans
    (nextId_of_allocates tracked.numbered allocated.1).1

/-- The accounts survive every cycle that mixes nothing up. -/
theorem accounted_clock
    (accounted : core.Accounted)
    (kept : core.mixesUp answer = false) :
    (core.clock answer).Accounted := by
  obtain ⟨noReuse, noLoss⟩ := Bool.or_eq_false_iff.mp kept
  have tracked := accounted.tracked
  refine
    { tracked := tracked_clock tracked noReuse
      agreeing := agreeing_clock tracked accounted.agreeing noReuse noLoss
      sameEntry := ?_
      origins := ?_ }
  · intro slot other valid validOther sameId
    rcases survives_or_allocated valid with survives | allocated
    · have older := tracked.entryIds slot survives.2.2.2
      rw [survives.kanataId_clock] at sameId
      rcases survives_or_allocated validOther with survivesToo | allocatedToo
      · rw [survivesToo.kanataId_clock] at sameId
        exact accounted.sameEntry slot other survives.2.2.2
          survivesToo.2.2.2 sameId
      · rw [sameId, kanataId_of_allocates tracked allocatedToo] at older
        exact (Nat.lt_irrefl _ older).elim
    · rw [kanataId_of_allocates tracked allocated] at sameId
      rcases survives_or_allocated validOther with survivesToo | allocatedToo
      · have older := tracked.entryIds other survivesToo.2.2.2
        rw [← survivesToo.kanataId_clock, ← sameId] at older
        exact (Nat.lt_irrefl _ older).elim
      · rw [allocated.2, allocatedToo.2]
  · intro place instr carries
    rcases carries_clock carries with
      ⟨_, _, rfl⟩ | ⟨source, _, before⟩
    · exact decoder_wbOrigin _ _ _ _
    · exact accounted.origins source instr before

/-- Whatever is still to come of an instruction agrees on one result. -/
structure Promises (core : Datapath) (id : Nat) (value : Bus32) : Prop where
  older : id < core.nextId
  carriers :
    ∀ {place instr},
      core.Carries place instr →
      (core.rob.robQ instr.robIdx).valid = true →
      (core.rob.robQ instr.robIdx).kanataId = id →
      core.due place = some value
  entries :
    ∀ slot,
      (core.rob.robQ slot).valid = true →
      (core.rob.robQ slot).kanataId = id →
      (core.rob.robQ slot).completed = true →
      (core.rob.robQ slot).result = value

/-- A promise is kept by every cycle that mixes nothing up. -/
theorem promises_clock
    (accounted : core.Accounted)
    (kept : core.mixesUp answer = false)
    (promises : core.Promises id value) :
    (core.clock answer).Promises id value := by
  obtain ⟨noReuse, noLoss⟩ := Bool.or_eq_false_iff.mp kept
  have tracked := accounted.tracked
  have notAllocated :
      ∀ {slot},
        ((core.clock answer).rob.robQ slot).kanataId = id →
        ¬ core.rob.allocates (core.robAlloc answer) slot := by
    intro slot isId allocated
    have older := promises.older
    rw [← isId, kanataId_of_allocates tracked allocated] at older
    exact Nat.lt_irrefl _ older
  refine
    ⟨Nat.lt_of_lt_of_le promises.older (nextId_le_clock tracked.numbered),
      ?_, ?_⟩
  · intro place instr carries valid isId
    rcases carries_clock_survives noReuse carries valid with
      ⟨_, allocated⟩ | ⟨survives, source, feeds, before⟩
    · exact (notAllocated isId allocated).elim
    · rw [survives.kanataId_clock] at isId
      exact due_of_feeds tracked.mulPipe noLoss
        (tracked.shaped source instr before) survives.2.2.2 before feeds
        (promises.carriers before survives.2.2.2 isId)
  · intro slot valid isId completed
    rcases survives_or_allocated valid with survives | allocated
    · rw [survives.kanataId_clock] at isId
      rcases survives.completed_clock completed with
        ⟨written, sameResult⟩ | ⟨before, sameResult⟩
      · obtain ⟨writing, rfl⟩ := carries_of_writesBack written
        have known :=
          promises.carriers writing survives.2.2.2 isId
        rw [sameResult]
        exact Option.some.inj known
      · rw [sameResult]
        exact promises.entries slot survives.2.2.2 isId before
    · exact (notAllocated isId allocated).elim

/-- A commit keeps the promise. -/
theorem Promises.result_of_commits
    (promises : core.Promises id value)
    (commits : core.Commits id result) :
    result = value := by
  have isValid := commits.valid
  have commitValid : core.rob.commitValid = true := by
    by_contra silent
    simp [commit, Rob.commit, silent] at isValid
  obtain ⟨valid, completed⟩ := Rob.commitValid_iff.mp commitValid
  have isId := commits.instruction
  have isResult := commits.result
  simp only [commit, Rob.commit, commitValid, if_true] at isId isResult
  rw [← isResult]
  exact promises.entries _ valid isId completed

/-- A carrier that knows the result promises it. -/
theorem promises_of_due
    (accounted : core.Accounted)
    (carries : core.Carries place instr)
    (valid : (core.rob.robQ instr.robIdx).valid = true)
    (known : core.due place = some value) :
    core.Promises (core.rob.robQ instr.robIdx).kanataId value where
  older := accounted.tracked.entryIds _ valid
  carriers := by
    intro second other carriesSecond validSecond sameId
    have sameIdx :=
      accounted.sameEntry _ _ valid validSecond sameId.symm
    rcases accounted.agreeing.copies carries carriesSecond sameIdx valid with
      rfl | ⟨both, knownBoth, knownSecond⟩
    · exact known
    · rw [knownSecond, ← knownBoth]
      exact known
  entries := by
    intro slot validSlot sameId completed
    obtain rfl := accounted.sameEntry _ _ valid validSlot sameId.symm
    have agreed := accounted.agreeing.completed carries valid completed
    rw [known] at agreed
    exact (Option.some.inj agreed).symm

/-- So does an entry that has completed. -/
theorem promises_of_completed
    (accounted : core.Accounted)
    (valid : (core.rob.robQ slot).valid = true)
    (completed : (core.rob.robQ slot).completed = true) :
    core.Promises (core.rob.robQ slot).kanataId
      (core.rob.robQ slot).result where
  older := accounted.tracked.entryIds _ valid
  carriers := by
    intro place instr carries validIdx sameId
    obtain rfl := accounted.sameEntry _ _ valid validIdx sameId.symm
    exact accounted.agreeing.completed carries valid completed
  entries := by
    intro other validOther sameId _
    rw [accounted.sameEntry _ _ valid validOther sameId.symm]

/-- What leaves execute in a cycle without a stall is carried there, with the
result that is due. -/
theorem carries_of_exeToMemD
    (tracked : core.Tracked)
    (noExe : core.stallFromExe = false)
    (valid : core.exeToMemD.valid = true) :
    ∃ source,
      core.Carries source core.exeToMemD.instr ∧
        core.due source =
          core.exeToMemD.instr.due core.exeToMemD.result := by
  rcases core.exe.exePipeD_cases core.decodeToExeQ 4 with
    moved | ⟨entered, entry, _⟩
  · have carries : core.Carries (.exePipe 3) core.exeToMemD.instr := by
      change (core.exe.exePipeD core.decodeToExeQ 4).valid = true at valid
      rw [moved] at valid
      exact ⟨valid, (congrArg DecodeToExe.instr moved).symm⟩
    obtain ⟨_, sameResult⟩ := exeToMemD_of_leave tracked.mulPipe carries
    refine ⟨.exePipe 3, carries, ?_⟩
    rw [sameResult, ← carries.2]
    rfl
  · have isFront : core.Carries .decodeToExe core.decodeToExeQ.instr := by
      change (core.exe.exePipeD core.decodeToExeQ 4).valid = true at valid
      rw [entered] at valid
      exact ⟨valid, rfl⟩
    obtain ⟨sameInstr, sameResult⟩ :=
      exeToMemD_of_single (tracked.shaped _ _ isFront) noExe entry
    refine ⟨.decodeToExe, sameInstr ▸ isFront, ?_⟩
    rw [sameInstr, sameResult]
    rfl

/-- The writer that a hazard names is an entry in use. -/
theorem hazardOf_pending
    (window : core.rob.WellFormed)
    (pending : (core.hazardOf port).hazard = true) :
    ∃ slot,
      core.hazardOf port = core.rob.hazardAt slot ∧
        (core.rob.robQ slot).valid = true := by
  have found : ∃ rsAddr, core.hazardOf port = core.rob.hazard rsAddr := by
    cases port with
    | rs1 => exact ⟨_, rfl⟩
    | rs2 => exact ⟨_, rfl⟩
  obtain ⟨rsAddr, isSearch⟩ := found
  rw [isSearch] at pending ⊢
  rcases window.hazard_cases rsAddr with
    ⟨none, _⟩ | ⟨slot, isSlot, writes, _⟩
  · rw [none] at pending
    cases pending
  · exact ⟨slot, isSlot, (Rob.writes_iff.mp writes).2.valid⟩

/-- A hazard does not keep an instruction in decode once it is solved. -/
theorem solved_of_allocates
    (passes : core.allocates answer = true)
    (pending : (core.hazardOf port).hazard = true) :
    core.solvedHazard (core.hazardOf port) = true := by
  have noStall := (allocates_iff.mp passes).1
  simp only [stall, Bool.or_eq_false_iff, Bool.and_eq_false_iff,
    Bool.not_eq_false', Bool.and_eq_true] at noStall
  rcases noStall.1.1.1.1 with noHazard | solved
  · cases port with
    | rs1 =>
        change core.hazardRs1.hazard = true at pending
        rw [pending] at noHazard
        cases noHazard.1
    | rs2 =>
        change core.hazardRs2.hazard = true at pending
        rw [pending] at noHazard
        cases noHazard.2
  · cases port with
    | rs1 => exact solved.1
    | rs2 => exact solved.2

/-- The three places where a pending value is taken from. -/
theorem operand_cases
    {hazard : RobHazard}
    (pending : hazard.hazard = true)
    (solved : core.solvedHazard hazard = true)
    (regfileData : Bus32) :
    (hazard.completed = true ∧
        core.operand hazard regfileData = hazard.result) ∨
      (hazard.completed = false ∧ core.forwardsFromExe hazard = true ∧
        core.operand hazard regfileData = core.exeToMemD.result) ∨
      (core.forwardsFromExe hazard = false ∧
        core.forwardsFromMem hazard = true ∧
        core.operand hazard regfileData = core.memToWbD.result) := by
  cases completed : hazard.completed with
  | true => simp [operand, pending, completed]
  | false =>
      cases fromExe : core.forwardsFromExe hazard with
      | true => simp [operand, pending, completed, fromExe]
      | false =>
          have fromMem : core.forwardsFromMem hazard = true := by
            simpa [solvedHazard, pending, completed, fromExe] using solved
          simp [operand, pending, completed, fromExe, fromMem]

/-- What decode takes from execute is the result that is due, unless it is the
target of a jump. -/
theorem promises_of_exe
    (accounted : core.Accounted)
    (noExe : core.stallFromExe = false)
    (inUse : (core.rob.robQ slot).valid = true)
    (valid : core.exeToMemD.valid = true)
    (sameSlot : core.exeToMemD.instr.robIdx = slot)
    (notLoad : core.exeToMemD.instr.wbOrigin ≠ .mem) :
    ∃ due,
      core.Promises (core.rob.robQ slot).kanataId due ∧
        (core.exeToMemD.result = due ↔
          ¬ (core.exeToMemD.instr.wbOrigin = .pc4 ∧
            core.exeToMemD.result ≠ core.exeToMemD.instr.pc + 4)) := by
  obtain ⟨source, carries, known⟩ :=
    carries_of_exeToMemD accounted.tracked noExe valid
  subst sameSlot
  have notMul := accounted.origins source _ carries
  cases origin : core.exeToMemD.instr.wbOrigin with
  | alu =>
      simp only [InstrData.due, origin] at known
      refine ⟨_, promises_of_due accounted carries inUse known, ?_⟩
      simp
  | mem => exact (notLoad origin).elim
  | mul => exact (notMul origin).elim
  | pc4 =>
      simp only [InstrData.due, origin] at known
      refine ⟨_, promises_of_due accounted carries inUse known, ?_⟩
      simp

/-- What decode takes is the result that is due, unless it is the target of a
jump. -/
theorem promises_of_takes
    (accounted : core.Accounted)
    (takes : core.Takes answer port id value) :
    ∃ due,
      core.Promises id due ∧
        (value = due ↔ core.takesTarget port = false) := by
  obtain ⟨slot, isSlot, inUse⟩ :=
    hazardOf_pending accounted.tracked.window takes.pending
  have noStall := (allocates_iff.mp takes.passes).1
  simp only [stall, Bool.or_eq_false_iff] at noStall
  have isEntry : (core.hazardOf port).robEntry = slot := by
    rw [isSlot]
    rfl
  obtain ⟨regfileData, isOperand⟩ :
      ∃ regfileData,
        core.operand (core.hazardOf port) regfileData = value := by
    cases port with
    | rs1 => exact ⟨_, takes.operand⟩
    | rs2 => exact ⟨_, takes.operand⟩
  have isId := takes.writer
  rw [isEntry] at isId
  subst isId
  rw [← isOperand]
  rcases operand_cases takes.pending
      (solved_of_allocates takes.passes takes.pending) regfileData with
    ⟨completed, fromEntry⟩ | ⟨notYet, fromExe, fromResult⟩ |
      ⟨notExe, fromMem, fromResult⟩
  · have done : (core.rob.robQ slot).completed = true := by
      rw [isSlot] at completed
      exact completed
    refine ⟨_, promises_of_completed accounted inUse done, ?_⟩
    rw [fromEntry, isSlot]
    refine iff_of_true rfl ?_
    rw [takesTarget, completed]
    rfl
  · have parts := fromExe
    simp only [forwardsFromExe, Bool.and_eq_true, beq_iff_eq,
      Bool.not_eq_true', beq_eq_false_iff_ne] at parts
    obtain ⟨⟨sameSlot, valid⟩, notLoad⟩ := parts
    rw [isEntry] at sameSlot
    obtain ⟨due, promises, agrees⟩ :=
      promises_of_exe accounted noStall.1.1.1.2 inUse valid sameSlot.symm
        notLoad
    refine ⟨due, promises, ?_⟩
    rw [fromResult, agrees, takesTarget, notYet, fromExe]
    simp
  · have parts := fromMem
    simp only [forwardsFromMem, Bool.and_eq_true, beq_iff_eq] at parts
    obtain ⟨sameSlot, finishes⟩ := parts
    have carries : core.Carries .exeToMem core.exeToMemQ.instr :=
      ⟨valid_of_memToWbD finishes, rfl⟩
    have isOwn : core.exeToMemQ.instr.robIdx = slot :=
      sameSlot.symm.trans isEntry
    subst isOwn
    refine
      ⟨_, promises_of_due accounted carries inUse (due_of_finish finishes),
        ?_⟩
    rw [fromResult]
    refine iff_of_true rfl ?_
    rw [takesTarget, notExe, Bool.and_false]
    rfl

end Datapath

namespace Core

variable {powerUp : Core} {horizon : Nat}

/-- The accounts are in order along a run that mixes nothing up. -/
theorem run_accounted
    {cycle : Nat}
    (kept :
      ∀ earlier,
        earlier < cycle →
        (powerUp.run earlier).datapath.mixesUp
          (powerUp.run earlier).answer = false) :
    (powerUp.run cycle).datapath.Accounted :=
  run_invariant (Datapath.accounted_reset _)
    (fun _ _ noMix accounted => Datapath.accounted_clock accounted noMix)
    cycle kept

/-- A promise is kept along such a run. -/
theorem run_promises
    {taken id : Nat}
    {value : Bus32}
    (distance : Nat)
    (kept :
      ∀ cycle,
        cycle < taken + distance →
        (powerUp.run cycle).datapath.mixesUp
          (powerUp.run cycle).answer = false)
    (promises : (powerUp.run taken).datapath.Promises id value) :
    (powerUp.run (taken + distance)).datapath.Promises id value := by
  induction distance with
  | zero => exact promises
  | succ distance inductionHypothesis =>
      have before :
          ∀ cycle,
            cycle < taken + distance →
            (powerUp.run cycle).datapath.mixesUp
              (powerUp.run cycle).answer = false :=
        fun cycle early => kept cycle (Nat.lt_succ_of_lt early)
      exact
        Datapath.promises_clock (run_accounted before)
          (kept _ (Nat.lt_succ_self _)) (inductionHypothesis before)

/-- A value that decode takes is the one that is committed, exactly when it is
not the target of a jump. -/
theorem taken_eq_committed_iff
    {taken committed id : Nat}
    {port : SourcePort}
    {value result : Bus32}
    (kept :
      ∀ cycle,
        cycle < committed →
        (powerUp.run cycle).datapath.mixesUp
          (powerUp.run cycle).answer = false)
    (ordered : taken ≤ committed)
    (takes :
      (powerUp.run taken).datapath.Takes (powerUp.run taken).answer port id
        value)
    (commits : (powerUp.run committed).datapath.Commits id result) :
    value = result ↔
      (powerUp.run taken).datapath.takesTarget port = false := by
  have accounted : (powerUp.run taken).datapath.Accounted :=
    run_accounted fun cycle early =>
      kept cycle (Nat.lt_of_lt_of_le early ordered)
  obtain ⟨due, promises, agrees⟩ :=
    Datapath.promises_of_takes accounted takes
  obtain ⟨distance, rfl⟩ := Nat.exists_eq_add_of_le ordered
  have isDue :=
    (run_promises distance kept promises).result_of_commits commits
  rw [isDue]
  exact agrees

/-- Up to a cycle, every value that decode has taken from an instruction which
is committed is the result of that commit. -/
def ForwardsCommitted (powerUp : Core) (horizon : Nat) : Prop :=
  ∀ taken committed port id value result,
    taken ≤ committed →
    committed ≤ horizon →
    (powerUp.run taken).datapath.Takes (powerUp.run taken).answer port id
      value →
    (powerUp.run committed).datapath.Commits id result →
    value = result

/-- Up to a cycle, no value that decode has taken from an instruction which is
committed is the target of a jump. -/
def ForwardsNoTarget (powerUp : Core) (horizon : Nat) : Prop :=
  ∀ taken committed port id value result,
    taken ≤ committed →
    committed ≤ horizon →
    (powerUp.run taken).datapath.Takes (powerUp.run taken).answer port id
      value →
    (powerUp.run committed).datapath.Commits id result →
    (powerUp.run taken).datapath.takesTarget port = false

/--
In every run that hands out no index which is still carried upstream and drops
no slot of the store buffer which answers a waiting load, every value that
decode takes is the one that is committed if and only if none is the target of
a jump.
-/
theorem forwardsCommitted_iff
    (kept :
      ∀ cycle,
        cycle < horizon →
        (powerUp.run cycle).datapath.mixesUp
          (powerUp.run cycle).answer = false) :
    powerUp.ForwardsCommitted horizon ↔ powerUp.ForwardsNoTarget horizon := by
  have each
      {taken committed id : Nat}
      {port : SourcePort}
      {value result : Bus32}
      (ordered : taken ≤ committed)
      (within : committed ≤ horizon)
      (takes :
        (powerUp.run taken).datapath.Takes (powerUp.run taken).answer port
          id value)
      (commits : (powerUp.run committed).datapath.Commits id result) :=
    taken_eq_committed_iff
      (fun cycle early => kept cycle (Nat.lt_of_lt_of_le early within))
      ordered takes commits
  constructor
  · intro forwards taken committed port id value result ordered within takes
      commits
    exact (each ordered within takes commits).mp
      (forwards taken committed port id value result ordered within takes
        commits)
  · intro noTarget taken committed port id value result ordered within takes
      commits
    exact (each ordered within takes commits).mpr
      (noTarget taken committed port id value result ordered within takes
        commits)

/-- An addition whose operands are the result of another one. -/
def addThenUse : List Bus32 :=
  [ 0x00100093, -- addi x1, x0, 1
    0x00108133 ] -- add x2, x1, x1

/-- While the first instructions of that program pass, nothing is mixed up. -/
theorem forwardsCommitted_iff_addThenUse :
    (withProgram addThenUse).ForwardsCommitted 20 ↔
      (withProgram addThenUse).ForwardsNoTarget 20 := by
  have passed :
      Strict.always Core.clock
        (fun core => !core.datapath.mixesUp core.answer) 20
        (withProgram addThenUse).reset = true := by
    decide +kernel
  apply forwardsCommitted_iff
  intro cycle early
  simpa using check_run passed early.le

/-- What decode takes for a source: whether it does, from which instruction,
and the value. -/
def takenFor (port : SourcePort) (core : Core) : Bool × Nat × Bus32 :=
  (core.datapath.allocates core.answer &&
      (core.datapath.hazardOf port).hazard,
    (core.datapath.rob.robQ
      (core.datapath.hazardOf port).robEntry).kanataId,
    core.datapath.operandOf core.answer port)

/-- What is committed: whether an instruction is, which one, and the
result. -/
def committedFor (core : Core) : Bool × Nat × Bus32 :=
  (core.datapath.commit.valid, core.datapath.commit.kanataId,
    core.datapath.commit.result)

/-- A run in which evaluation finds another value taken than committed. -/
theorem not_forwardsCommitted_of_observed
    {taken committed id : Nat}
    {port : SourcePort}
    {value result : Bus32}
    (ordered : taken ≤ committed)
    (differ : value ≠ result)
    (takes :
      Strict.observe Core.clock (takenFor port) taken powerUp.reset =
        (true, id, value))
    (commits :
      Strict.observe Core.clock committedFor committed powerUp.reset =
        (true, id, result)) :
    ¬ powerUp.ForwardsCommitted committed := by
  rw [← observe_run powerUp] at takes commits
  simp only [takenFor, committedFor, Prod.mk.injEq, Bool.and_eq_true]
    at takes commits
  obtain ⟨⟨passes, pending⟩, writer, operand⟩ := takes
  obtain ⟨valid, instruction, isResult⟩ := commits
  intro forwards
  exact differ
    (forwards taken committed port id value result ordered
      (Nat.le_refl committed) ⟨passes, pending, writer, operand⟩
      ⟨valid, instruction, isResult⟩)

/-- A jump and link, and an instruction behind it that reads the link. -/
def linkThenUse : List Bus32 :=
  [ 0x008000ef, -- jal x1, 8
    0x00008113 ] -- addi x2, x1, 0

/-- A multiplication from an abandoned path, and an addition that gets its
index. -/
def abandonedMul : List Bus32 :=
  [ 0x0180006f, -- jal x0, 24
    0x00000013, -- addi x0, x0, 0
    0x020002b3, -- mul x5, x0, x0
    0x00000013, -- addi x0, x0, 0
    0x00000013, -- addi x0, x0, 0
    0x00000013, -- addi x0, x0, 0
    0x02948433, -- mul x8, x9, x9
    0x00000013, -- addi x0, x0, 0
    0x00700313, -- addi x6, x0, 7
    0x00000013, -- addi x0, x0, 0
    0x00030393 ] -- addi x7, x6, 0

/-- Decode takes the target 8 of a jump whose link is 4; and it takes the
product of the abandoned multiplication in place of 7. -/
theorem not_forwardsCommitted :
    ¬ (withProgram linkThenUse).ForwardsCommitted 16 ∧
      ¬ (withProgram abandonedMul).ForwardsCommitted 28 := by
  constructor
  · exact
      not_forwardsCommitted_of_observed (show 13 ≤ 16 by decide)
        (show (8 : Bus32) ≠ 4 by decide)
        (show
          Strict.observe Core.clock (takenFor .rs1) 13
              (withProgram linkThenUse).reset = (true, 0, 8) by
          decide +kernel)
        (by decide +kernel)
  · exact
      not_forwardsCommitted_of_observed (show 22 ≤ 28 by decide)
        (show (0 : Bus32) ≠ 7 by decide)
        (show
          Strict.observe Core.clock (takenFor .rs1) 22
              (withProgram abandonedMul).reset = (true, 7, 0) by
          decide +kernel)
        (by decide +kernel)

end Core

end Tartaruga
