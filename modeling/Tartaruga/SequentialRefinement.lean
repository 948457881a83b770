import Tartaruga.PipelineValues

namespace Tartaruga

/-!
# The pipeline follows the sequential machine

The machine stands in front of the next instruction to commit.  The owner of a
slot of the reorder buffer is as many instructions further on as the slot is
from the head, unless a taken branch lies in between; up to there, every
register and every completed entry holds what the machine computes.
-/

/-- What a commit shows of the architecture. -/
def RobCommit.architectural (commit : RobCommit) : ArchitecturalCommit where
  pc := commit.pc
  instr := commit.instr
  rdAddr := commit.rdAddr
  writeEnable := commit.writeEnable
  result := commit.result
  branchTaken := commit.branchTaken
  newPc := if commit.branchTaken then some commit.newPc else .none

/-- The record of an instruction is what the decoder says about its word. -/
structure RobOwn.Recorded (own : RobOwn) : Prop where
  addrRd : own.addrRd = (decoder own.pc own.instr 0 0).addrRd
  writeEnable :
    own.writeEnable = (decoder own.pc own.instr 0 0).writeEnable

namespace Datapath

variable {core : Datapath} {answer : FetchAnswer} {instr : InstrData}
  {place : Place} {slot : RobIdx} {word : Bus32 → Bus32}
  {machine : SequentialMachine} {register : RegAddr}

/-- The machine in front of the instruction that owns the slot. -/
def reference
    (core : Datapath)
    (word : Bus32 → Bus32)
    (machine : SequentialMachine)
    (slot : RobIdx) :
    SequentialMachine :=
  machine.after word (Ring.dist core.rob.headPtrQ slot)

/-- No branch is taken on the way from the head to the slot. -/
def Reaches
    (core : Datapath)
    (word : Bus32 → Bus32)
    (machine : SequentialMachine)
    (slot : RobIdx) :
    Prop :=
  machine.Straight word (Ring.dist core.rob.headPtrQ slot)

/-- Every entry in use is recorded as decoded. -/
def DecodedEntries (core : Datapath) : Prop :=
  ∀ slot,
    (core.rob.robQ slot).valid = true → (core.rob.robQ slot).own.Recorded

theorem decoded_recorded : core.decoded.own.Recorded := by
  have samePc : core.decoded.own.pc = core.pcDecode :=
    decoder_pc _ _ _ _
  have sameInstr : core.decoded.own.instr = core.instructionQ :=
    decoder_instr _ _ _ _
  have relabelled :=
    decoder_relabelled core.pcDecode core.instructionQ core.rob.robEntryAlloc
      core.idDecode core.pcDecode
  constructor
  · rw [samePc, sameInstr]
    change core.decoded.addrRd = _
    rw [decoded, relabelled, InstrData.relabelled_addrRd]
  · rw [samePc, sameInstr]
    change core.decoded.writeEnable = _
    rw [decoded, relabelled, InstrData.relabelled_writeEnable]

/-- Allocation records what decode holds. -/
theorem decodedEntries_clock (decoded : core.DecodedEntries) :
    (core.clock answer).DecodedEntries := by
  intro slot valid
  rw [own_clock]
  by_cases allocated : core.rob.allocates (core.robAlloc answer) slot
  · rw [if_pos allocated]
    exact decoded_recorded
  · rw [if_neg allocated]
    exact decoded slot
      ((Rob.robD_valid.mp valid).2.2.resolve_left allocated)

/-- An instruction that leaves decode has both its sources. -/
theorem solvedHazard_of_moves (moves : core.stall answer = false) :
    core.solvedHazard core.hazardRs1 = true ∧
      core.solvedHazard core.hazardRs2 = true := by
  simp only [stall, Bool.or_eq_false_iff] at moves
  have hazards := moves.1.1.1.1
  have solvedAlone :
      ∀ {hazard : RobHazard},
        hazard.hazard = false → core.solvedHazard hazard = true := by
    intro hazard noHazard
    simp [solvedHazard, noHazard]
  cases pending : core.hazardRs1.hazard || core.hazardRs2.hazard with
  | true =>
      simpa [pending] using hazards
  | false =>
      rw [Bool.or_eq_false_iff] at pending
      exact ⟨solvedAlone pending.1, solvedAlone pending.2⟩

/-- The core has done what the machine has done, and holds what the machine is
about to do. -/
structure Follows
    (core : Datapath)
    (word : Bus32 → Bus32)
    (machine : SequentialMachine) :
    Prop where
  path : core.OnPath word machine.pc
  pipelined : core.Pipelined word
  decodedEntries : core.DecodedEntries
  registers :
    ∀ register,
      register ≠ 31 → core.regfile register = machine.registers register
  entries :
    ∀ slot,
      (core.rob.robQ slot).valid = true →
      (core.rob.robQ slot).completed = true →
      core.Reaches word machine slot →
      (core.rob.robQ slot).payload.Agrees word
        (core.reference word machine slot)
  carriers :
    ∀ place instr,
      core.Carries place instr →
      (core.rob.robQ instr.robIdx).valid = true →
      core.Reaches word machine instr.robIdx →
      core.Holds word (core.reference word machine instr.robIdx) place

theorem follows_reset
    (core : Datapath)
    (word : Bus32 → Bus32) :
    core.reset.Follows word .initial where
  path := onPath_reset core word
  pipelined := pipelined_reset core word
  decodedEntries := fun _ valid => by cases valid
  registers := fun _ notLast => core.regfile.reset_of_ne_last notLast
  entries := fun _ valid => by cases valid
  carriers := fun _ _ carries => (not_carries_reset core carries).elim

namespace Follows

variable (follows : core.Follows word machine)
include follows

/-- The entry that is reached is the next instruction of the machine. -/
theorem pc_eq
    (valid : (core.rob.robQ slot).valid = true)
    (reached : core.Reaches word machine slot) :
    (core.rob.robQ slot).own.pc = (core.reference word machine slot).pc :=
  (follows.path.entries slot valid).1.trans reached.pc_after.symm

/-- A carried instruction that is reached is the next one of the machine. -/
theorem isNext
    (carries : core.Carries place instr)
    (valid : (core.rob.robQ instr.robIdx).valid = true)
    (reached : core.Reaches word machine instr.robIdx) :
    instr.IsNext word (core.reference word machine instr.robIdx) := by
  have own := follows.pipelined.owned place instr carries valid
  obtain ⟨pc, robIdx, idDecode, decoded⟩ :=
    follows.pipelined.ofProgram place instr carries
  have carriesPc : instr.pc = pc := by
    rw [decoded, decoder_pc]
  have samePc : pc = (core.reference word machine instr.robIdx).pc := by
    rw [← follows.pc_eq valid reached, own]
    exact carriesPc.symm
  exact ⟨robIdx, idDecode, samePc ▸ decoded⟩

/-- An entry that is reached writes what the machine writes. -/
theorem writes_iff
    (valid : (core.rob.robQ slot).valid = true)
    (reached : core.Reaches word machine slot) :
    core.rob.writes register slot = true ↔
      (core.reference word machine slot).Writes word register := by
  have recorded := follows.decodedEntries slot valid
  have isWord := (follows.path.entries slot valid).2
  have decoded :
      decoder (core.rob.robQ slot).own.pc (core.rob.robQ slot).own.instr 0
          0 =
        (core.reference word machine slot).decoded word := by
    rw [isWord, follows.pc_eq valid reached]
    rfl
  have sameAddr :
      (core.rob.robQ slot).addrRd =
        ((core.reference word machine slot).decoded word).addrRd :=
    recorded.addrRd.trans (congrArg InstrData.addrRd decoded)
  have sameEnable :
      (core.rob.robQ slot).writeEnable =
        ((core.reference word machine slot).decoded word).writeEnable :=
    recorded.writeEnable.trans (congrArg InstrData.writeEnable decoded)
  rw [Rob.writes_iff, SequentialMachine.Writes, ← sameAddr, ← sameEnable]
  constructor
  · intro writes
    exact ⟨writes.2.enabled, writes.2.sameAddr, writes.1⟩
  · intro writes
    exact ⟨writes.2.2, valid, writes.1, writes.2.1⟩

/-- There is a reached entry in use for every instruction that the machine
runs before the one in decode. -/
theorem exists_slot
    {index : Nat}
    (within : index < core.rob.occupancy) :
    ∃ slot,
      Ring.dist core.rob.headPtrQ slot = index ∧
        (core.rob.robQ slot).valid = true := by
  have fits := Nat.lt_trans within (Ring.dist_lt _ _)
  obtain ⟨slot, isAt⟩ := Ring.exists_dist core.rob.headPtrQ fits
  refine ⟨slot, isAt, (follows.pipelined.wellFormed slot).mpr ?_⟩
  rw [isAt]
  exact within

/-- A value that is forwarded is the result of the instruction it is taken
from. -/
theorem forwarded
    (program : RegisterProgram word)
    (carries : (core.clock answer).Carries place instr)
    (isForward : place = .exeToMem ∨ place = .memToWb)
    (valid : (core.rob.robQ instr.robIdx).valid = true)
    (reached : core.Reaches word machine instr.robIdx) :
    (core.clock answer).Holds word (core.reference word machine instr.robIdx)
      place := by
  rcases carries_clock carries with
    ⟨isFirst, _, _⟩ | ⟨source, feeds, before⟩
  · rcases isForward with rfl | rfl
    · cases isFirst
    · cases isFirst
  · have ofProgram := follows.pipelined.ofProgram
    exact
      holds_of_feeds program follows.pipelined.pipesMul
        (ofProgram.stallFromMem program)
        (ofProgram.shaped source instr before)
        (follows.isNext before valid reached) before feeds
        (follows.carriers source instr before valid reached)

/-- The pending writer of a source, once it is solved, supplies its result. -/
theorem operand_of_writer
    (answer : FetchAnswer)
    (program : RegisterProgram word)
    (valid : (core.rob.robQ slot).valid = true)
    (reached : core.Reaches word machine slot)
    (notTaken : (core.reference word machine slot).taken word = false)
    (solved : core.solvedHazard (core.rob.hazardAt slot) = true)
    (regfileData : Bus32) :
    core.operand (core.rob.hazardAt slot) regfileData =
      (core.reference word machine slot).result word := by
  have noMem := follows.pipelined.ofProgram.stallFromMem program
  have isHazard : (core.rob.hazardAt slot).hazard = true := rfl
  rw [operand, if_pos isHazard]
  cases completed : (core.rob.robQ slot).completed with
  | true =>
      have isCompleted : (core.rob.hazardAt slot).completed = true := completed
      rw [if_pos isCompleted]
      exact (follows.entries slot valid completed reached).result
  | false =>
      have notCompleted : (core.rob.hazardAt slot).completed = false :=
        completed
      simp only [solvedHazard, isHazard, notCompleted, Bool.not_true,
        Bool.false_or, Bool.or_eq_true] at solved
      rw [notCompleted, if_neg Bool.false_ne_true]
      by_cases fromExe :
          core.forwardsFromExe (core.rob.hazardAt slot) = true
      · rw [if_pos fromExe]
        simp only [forwardsFromExe, Rob.hazardAt, Bool.and_eq_true,
          beq_iff_eq] at fromExe
        obtain ⟨⟨rfl, outValid⟩, _⟩ := fromExe
        have next : (core.clock answer).exeToMemQ = core.exeToMemD :=
          exeToMemQ_of_moves noMem
        have carries :
            (core.clock answer).Carries .exeToMem core.exeToMemD.instr := by
          constructor
          · exact (congrArg ExeToMem.valid next).trans outValid
          · exact congrArg ExeToMem.instr next
        have holds :=
          follows.forwarded program carries (.inl rfl) valid reached
        rw [SequentialMachine.result_of_not_taken program notTaken,
          ← holds.1, next]
      · rw [if_neg fromExe]
        have fromMem := solved.resolve_left fromExe
        rw [if_pos fromMem]
        simp only [forwardsFromMem, Rob.hazardAt, Bool.and_eq_true,
          beq_iff_eq] at fromMem
        obtain ⟨rfl, outValid⟩ := fromMem
        have carries :
            (core.clock answer).Carries .memToWb core.memToWbD.instr :=
          ⟨outValid, rfl⟩
        have holds :=
          follows.forwarded program carries (.inr rfl) valid reached
        exact holds.result

/-- The operand of a solved source is what the machine reads. -/
theorem operand_eq
    (answer : FetchAnswer)
    (program : RegisterProgram word)
    (straight : machine.Straight word core.rob.occupancy)
    (solved : core.solvedHazard (core.rob.hazard register) = true)
    (notLast : register ≠ 31) :
    core.operand (core.rob.hazard register) (core.regfile register) =
      (machine.after word core.rob.occupancy).registers register := by
  have wellFormed := follows.pipelined.wellFormed
  have reaches :
      ∀ {slot},
        (core.rob.robQ slot).valid = true → core.Reaches word machine slot :=
    fun valid => straight.of_le ((wellFormed _).mp valid).le
  rcases wellFormed.hazard_cases register with
    ⟨isNone, silent⟩ | ⟨slot, isAt, writes, last⟩
  · have noWriter :
        ∀ index,
          0 ≤ index →
          index < 0 + core.rob.occupancy →
          ¬ (machine.after word index).Writes word register := by
      intro index _ within writes
      obtain ⟨slot, rfl, valid⟩ :=
        follows.exists_slot (Nat.zero_add core.rob.occupancy ▸ within)
      have isWriter := (follows.writes_iff valid (reaches valid)).mpr writes
      rw [silent slot valid] at isWriter
      cases isWriter
    have kept := SequentialMachine.registers_after_of_silent noWriter
    rw [Nat.zero_add] at kept
    rw [isNone, kept]
    exact follows.registers register notLast
  · have valid := (Rob.writes_iff.mp writes).2.valid
    have within := (wellFormed slot).mp valid
    have isLast :
        ∀ later,
          Ring.dist core.rob.headPtrQ slot < later →
          later < core.rob.occupancy →
          ¬ (machine.after word later).Writes word register := by
      intro later further within writes
      obtain ⟨other, rfl, otherValid⟩ := follows.exists_slot within
      have isWriter :=
        (follows.writes_iff otherValid (reaches otherValid)).mpr writes
      rw [last other otherValid further] at isWriter
      cases isWriter
    have written :=
      SequentialMachine.registers_after_of_last
        ((follows.writes_iff valid (reaches valid)).mp writes) within isLast
    rw [written, isAt]
    rw [isAt] at solved
    exact
      follows.operand_of_writer answer program valid (reaches valid)
        (straight _ within) solved _

/-- The head has completed with what the machine computes. -/
theorem head_agrees (commits : core.rob.commitValid = true) :
    (core.rob.robQ core.rob.headPtrQ).payload.Agrees word machine := by
  obtain ⟨inUse, completed⟩ := Rob.commitValid_iff.mp commits
  have reached : core.Reaches word machine core.rob.headPtrQ := by
    intro index before
    rw [Ring.dist_self] at before
    cases before
  have agrees :=
    follows.entries core.rob.headPtrQ inUse completed reached
  have atHead : core.reference word machine core.rob.headPtrQ = machine := by
    rw [reference, Ring.dist_self, SequentialMachine.after_zero]
  rwa [atHead] at agrees

/-- A commit shows what the machine shows. -/
theorem commit_eq (commits : core.commit.valid = true) :
    core.commit.architectural = machine.commit word := by
  have headCommits : core.rob.commitValid = true :=
    Rob.commit_valid.symm.trans commits
  have agrees := follows.head_agrees headCommits
  obtain ⟨samePc, sameInstr⟩ := follows.path.commit commits
  have headValid := (Rob.commitValid_iff.mp headCommits).1
  have recorded := follows.decodedEntries _ headValid
  have shows :
      core.commit.rdAddr = (core.rob.robQ core.rob.headPtrQ).own.addrRd ∧
        core.commit.writeEnable =
          (core.rob.robQ core.rob.headPtrQ).own.writeEnable ∧
        core.commit.pc = (core.rob.robQ core.rob.headPtrQ).own.pc ∧
        core.commit.instr = (core.rob.robQ core.rob.headPtrQ).own.instr ∧
        core.commit.result =
          (core.rob.robQ core.rob.headPtrQ).payload.result ∧
        core.commit.branchTaken =
          (core.rob.robQ core.rob.headPtrQ).payload.branchTaken ∧
        core.commit.newPc =
          (core.rob.robQ core.rob.headPtrQ).payload.newPc := by
    simp only [commit, Rob.commit, headCommits, if_true]
    exact ⟨rfl, rfl, rfl, rfl, rfl, rfl, rfl⟩
  obtain ⟨rdAddr, writeEnable, pc, instr, result, branchTaken, newPc⟩ := shows
  have decoded :
      decoder (core.rob.robQ core.rob.headPtrQ).own.pc
          (core.rob.robQ core.rob.headPtrQ).own.instr 0 0 =
        machine.decoded word := by
    rw [← pc, ← instr, samePc, sameInstr]
    rfl
  rw [recorded.addrRd, decoded] at rdAddr
  rw [recorded.writeEnable, decoded] at writeEnable
  rw [agrees.result] at result
  rw [agrees.branchTaken] at branchTaken
  simp only [RobCommit.architectural, SequentialMachine.commit, samePc,
    sameInstr, rdAddr, writeEnable, result, branchTaken]
  cases taken : machine.taken word with
  | true =>
      rw [newPc, agrees.newPc taken]
  | false =>
      rfl

end Follows

/-- The machine makes a step for every commit. -/
def following
    (core : Datapath)
    (word : Bus32 → Bus32)
    (machine : SequentialMachine) :
    SequentialMachine :=
  machine.after word core.committing

theorem following_of_commit (commits : core.commit.valid = true) :
    core.following word machine = machine.step word := by
  have headCommits : core.rob.commitValid = true :=
    Rob.commit_valid.symm.trans commits
  rw [following, committing, if_pos headCommits]
  rfl

theorem following_of_silent (silent : core.commit.valid = false) :
    core.following word machine = machine := by
  have noCommit : core.rob.commitValid = false :=
    Rob.commit_valid.symm.trans silent
  rw [following, committing, noCommit, if_neg Bool.false_ne_true]
  rfl

namespace Follows

variable (follows : core.Follows word machine)
include follows

/-- The machine goes where the commit says. -/
theorem pc_following :
    core.expectedD machine.pc = (core.following word machine).pc := by
  cases valid : core.commit.valid with
  | false =>
      rw [following_of_silent valid, expectedD, valid,
        if_neg Bool.false_ne_true]
  | true =>
      have shows := follows.commit_eq valid
      have samePc : core.commit.pc = machine.pc :=
        congrArg ArchitecturalCommit.pc shows
      have sameTaken : core.commit.branchTaken = machine.taken word :=
        congrArg ArchitecturalCommit.branchTaken shows
      have sameTarget :
          (if core.commit.branchTaken then some core.commit.newPc
              else none) =
            if machine.taken word then some (machine.target word)
              else none :=
        congrArg ArchitecturalCommit.newPc shows
      rw [following_of_commit valid, expectedD, valid, if_pos rfl,
        RobCommit.nextPc, SequentialMachine.step]
      cases taken : machine.taken word with
      | true =>
          rw [sameTaken, taken, if_pos rfl, if_pos rfl, Option.some.injEq]
            at sameTarget
          rw [sameTaken, taken, if_pos rfl, if_pos rfl, sameTarget]
      | false =>
          rw [sameTaken, taken, if_neg Bool.false_ne_true,
            if_neg Bool.false_ne_true, samePc]

/-- The register file follows the registers of the machine. -/
theorem registers_following
    (notLast : register ≠ 31) :
    (core.clock answer).regfile register =
      (core.following word machine).registers register := by
  refine (Regfile.clock_of_ne_last core.commit notLast).trans ?_
  have before := follows.registers register notLast
  cases valid : core.commit.valid with
  | false =>
      have noWrite := Core.writeEnable_of_not_valid valid
      rw [following_of_silent valid, Regfile.afterCommit, noWrite,
        if_neg (fun writes => Bool.false_ne_true writes.1)]
      exact before
  | true =>
      have shows := follows.commit_eq valid
      have sameAddr :
          core.commit.rdAddr = (machine.decoded word).addrRd :=
        congrArg ArchitecturalCommit.rdAddr shows
      have sameEnable :
          core.commit.writeEnable = (machine.decoded word).writeEnable :=
        congrArg ArchitecturalCommit.writeEnable shows
      have sameResult : core.commit.result = machine.result word :=
        congrArg ArchitecturalCommit.result shows
      rw [following_of_commit valid]
      by_cases writes : machine.Writes word register
      · obtain ⟨enabled, sameRegister, notZero⟩ := writes
        rw [SequentialMachine.step_registers_of_writes
            ⟨enabled, sameRegister, notZero⟩,
          Regfile.afterCommit, sameAddr, sameEnable, sameRegister,
          if_pos ⟨enabled, notZero⟩, Function.update_self, sameResult]
      · rw [SequentialMachine.step_registers_of_not_writes writes,
          Regfile.afterCommit]
        split
        · rename_i written
          rw [sameAddr, sameEnable] at written
          rw [Function.update_of_ne, before]
          intro sameRegister
          rw [sameAddr] at sameRegister
          exact
            writes
              ⟨written.1, sameRegister.symm, sameRegister ▸ written.2⟩
        · exact before

/-- Without a flush the machine runs straight on. -/
theorem straight_committing (noFlush : core.rob.flush = false) :
    machine.Straight word core.committing := by
  intro index before
  rw [committing] at before
  split at before
  · rename_i commits
    have first : index = 0 := Nat.lt_one_iff.mp before
    have notTaken : (core.rob.robQ core.rob.headPtrQ).branchTaken = false := by
      rw [Rob.flush, commits, Bool.true_and] at noFlush
      exact noFlush
    rw [first, SequentialMachine.after_zero,
      ← (follows.head_agrees commits).branchTaken]
    exact notTaken
  · cases before

/-- The slots that stay belong to the same instructions of the machine. -/
theorem reference_following
    (answer : FetchAnswer)
    (noFlush : core.rob.flush = false)
    (stays : ¬ core.rob.retires slot) :
    (core.clock answer).reference word (core.following word machine) slot =
        core.reference word machine slot ∧
      ((core.clock answer).Reaches word (core.following word machine) slot →
        core.Reaches word machine slot) := by
  have moved :
      Ring.dist (core.clock answer).rob.headPtrQ slot + core.committing =
        Ring.dist core.rob.headPtrQ slot :=
    Rob.WellFormed.dist_headPtrD noFlush stays
  constructor
  · rw [reference, following, SequentialMachine.after_after, moved]
    rfl
  · intro reached
    have straight := (follows.straight_committing noFlush).append reached
    rwa [moved] at straight

/-- Completed entries go on holding what the machine computes. -/
theorem entries_clock
    (noFlush : core.rob.flush = false)
    (valid : ((core.clock answer).rob.robQ slot).valid = true)
    (completed : ((core.clock answer).rob.robQ slot).completed = true)
    (reached :
      (core.clock answer).Reaches word (core.following word machine) slot) :
    ((core.clock answer).rob.robQ slot).payload.Agrees word
      ((core.clock answer).reference word (core.following word machine)
        slot) := by
  obtain ⟨_, stays, source⟩ := Rob.robD_valid.mp valid
  obtain ⟨sameReference, reaches⟩ :=
    follows.reference_following answer noFlush stays
  have reachedBefore := reaches reached
  have wasCompleted :
      ((core.clock answer).rob.robQ slot).completed =
        if core.rob.writesBack core.robWb slot then true
        else if core.rob.allocates (core.robAlloc answer) slot then false
        else (core.rob.robQ slot).completed :=
    Rob.robD_completed
  rw [sameReference, payload_clock]
  by_cases written : core.rob.writesBack core.robWb slot
  · have validBefore := Rob.writesBack_valid written
    rw [if_pos written]
    obtain ⟨accepted, rfl⟩ := written
    simp only [Rob.acceptsWb, Bool.and_eq_true] at accepted
    exact
      follows.carriers .memToWb core.memToWbQ.instr ⟨accepted.1, rfl⟩
        validBefore reachedBefore
  · rw [if_neg written]
    rw [if_neg written, completed] at wasCompleted
    by_cases allocated : core.rob.allocates (core.robAlloc answer) slot
    · rw [if_pos allocated] at wasCompleted
      cases wasCompleted
    · rw [if_neg allocated] at wasCompleted
      exact
        follows.entries slot (source.resolve_left allocated)
          wasCompleted.symm reachedBefore

/-- What decode hands over are the operands of the machine. -/
theorem holds_decoded
    (program : RegisterProgram word)
    (allocated : core.allocates answer = true)
    (straight : machine.Straight word core.rob.occupancy) :
    Exe.SameOperands (core.decodeToExeD answer)
      ((machine.after word core.rob.occupancy).input word) := by
  obtain ⟨noStall, decodes, _⟩ := allocates_iff.mp allocated
  obtain ⟨pcDecode, isWord⟩ := follows.path.decode decodes
  have samePc :
      core.pcDecode = (machine.after word core.rob.occupancy).pc :=
    pcDecode.trans straight.pc_after.symm
  have isNext :
      core.decoded.IsNext word (machine.after word core.rob.occupancy) := by
    refine ⟨core.rob.robEntryAlloc, core.idDecode, ?_⟩
    rw [← samePc, ← isWord]
    rfl
  obtain ⟨robIdx, idDecode, same⟩ :=
    SequentialMachine.relabelled_of_isNext isNext
  have avoids :
      ((machine.after word core.rob.occupancy).decoded word).AvoidsLast :=
    program.avoidsLast _ _ _
  have solved := solvedHazard_of_moves noStall
  have sameRs1 :
      core.decoded.addrRs1 =
        ((machine.after word core.rob.occupancy).decoded word).addrRs1 := by
    rw [same, InstrData.relabelled_addrRs1]
  have sameRs2 :
      core.decoded.addrRs2 =
        ((machine.after word core.rob.occupancy).decoded word).addrRs2 := by
    rw [same, InstrData.relabelled_addrRs2]
  refine ⟨⟨robIdx, idDecode, same⟩, ?_, ?_, ?_⟩
  · have sameInstr : core.decoded.instr = core.instructionQ :=
      decoder_instr _ _ _ _
    change immediate core.decoded.instr = immediate (word _)
    rw [sameInstr, isWord, samePc]
  · intro reads
    have notLast : core.decoded.addrRs1 ≠ 31 := by
      rw [sameRs1]
      exact avoids.1 reads
    refine
      (follows.operand_eq answer program straight solved.1 notLast).trans ?_
    rw [sameRs1]
    rfl
  · intro reads
    have notLast : core.decoded.addrRs2 ≠ 31 := by
      rw [sameRs2]
      exact avoids.2.1 reads
    refine
      (follows.operand_eq answer program straight solved.2 notLast).trans ?_
    rw [sameRs2]
    rfl

/-- The registers go on holding what the machine computes. -/
theorem carriers_clock
    (program : RegisterProgram word)
    (noFlush : core.rob.flush = false)
    (carries : (core.clock answer).Carries place instr)
    (valid : ((core.clock answer).rob.robQ instr.robIdx).valid = true)
    (reached :
      (core.clock answer).Reaches word (core.following word machine)
        instr.robIdx) :
    (core.clock answer).Holds word
      ((core.clock answer).reference word (core.following word machine)
        instr.robIdx) place := by
  obtain ⟨_, stays, origin⟩ := Rob.robD_valid.mp valid
  obtain ⟨sameReference, reaches⟩ :=
    follows.reference_following answer noFlush stays
  have reachedBefore := reaches reached
  have pipelined := follows.pipelined
  rw [sameReference]
  rcases Datapath.carries_clock carries with
    ⟨rfl, allocated, rfl⟩ | ⟨source, feeds, before⟩
  · have moves : core.stall answer = false :=
      (allocates_iff.mp allocated).1
    have next :
        (core.clock answer).decodeToExeQ = core.decodeToExeD answer := by
      change core.decodeToExeNext answer = core.decodeToExeD answer
      rw [decodeToExeNext, moves]
      rfl
    have atTail :
        Ring.dist core.rob.headPtrQ core.decoded.robIdx =
          core.rob.occupancy := by
      rw [decoded_robIdx]
      rfl
    simp only [Reaches, atTail] at reachedBefore
    simp only [Holds, next, reference, atTail]
    exact follows.holds_decoded program allocated reachedBefore
  · have notAllocated :
        ¬ core.rob.allocates (core.robAlloc answer) instr.robIdx :=
      fun allocates =>
        robIdx_ne_tail
          (noReuse pipelined.wellFormed pipelined.phase) allocates.1
          feeds.source_ne_memToWb before allocates.2
    have validBefore := origin.resolve_left notAllocated
    exact
      holds_of_feeds program pipelined.pipesMul
        (pipelined.ofProgram.stallFromMem program)
        (pipelined.ofProgram.shaped source instr before)
        (follows.isNext before validBefore reachedBefore) before feeds
        (follows.carriers source instr before validBefore reachedBefore)

/-- The core goes on following the machine. -/
theorem clock
    (program : RegisterProgram word)
    (noMul : core.FlushesNoMul)
    (shows : answer.valid = true → answer.instr = word core.pcQ) :
    (core.clock answer).Follows word (core.following word machine) := by
  have wellFormed := follows.pipelined.wellFormed
  have noFlush :
      ∀ {slot},
        ((core.clock answer).rob.robQ slot).valid = true →
        core.rob.flush = false :=
    fun valid => (Rob.robD_valid.mp valid).1
  exact {
    path := by
      rw [← follows.pc_following]
      exact onPath_clock wellFormed follows.path shows
    pipelined :=
      pipelined_clock program follows.path noMul follows.pipelined
    decodedEntries := decodedEntries_clock follows.decodedEntries
    registers := fun _ notLast => follows.registers_following notLast
    entries := fun _ valid completed reached =>
      follows.entries_clock (noFlush valid) valid completed reached
    carriers := fun _ _ carries valid reached =>
      follows.carriers_clock program (noFlush valid) carries valid reached
  }

end Follows

section Run

variable {powerUp : Datapath} {answers : Nat → FetchAnswer} {horizon : Nat}

/-- The datapath after some cycles under some fetch timing. -/
def run (powerUp : Datapath) (answers : Nat → FetchAnswer) : Nat → Datapath :=
  Clocked.run clock powerUp.reset answers

/-- The commits of the first cycles, oldest first. -/
def commits (powerUp : Datapath) (answers : Nat → FetchAnswer) :
    Nat → List RobCommit :=
  Clocked.collect fun cycle =>
    if (powerUp.run answers cycle).commit.valid then
      some (powerUp.run answers cycle).commit
    else
      none

/-- Fetch answers with the words of the program, whenever it answers. -/
def Serves
    (powerUp : Datapath)
    (answers : Nat → FetchAnswer)
    (word : Bus32 → Bus32)
    (horizon : Nat) :
    Prop :=
  ∀ cycle,
    cycle < horizon →
    (answers cycle).valid = true →
    (answers cycle).instr = word (powerUp.run answers cycle).pcQ

/-- The machine that the core follows. -/
def followed
    (powerUp : Datapath)
    (answers : Nat → FetchAnswer)
    (word : Bus32 → Bus32) :
    Nat → SequentialMachine
  | 0 => .initial
  | cycle + 1 =>
      (powerUp.run answers cycle).following word
        (powerUp.followed answers word cycle)

/-- The core follows the machine in every cycle. -/
theorem run_follows
    (program : RegisterProgram word)
    (serves : powerUp.Serves answers word horizon)
    (noMul :
      ∀ cycle,
        cycle < horizon → (powerUp.run answers cycle).FlushesNoMul)
    (cycle : Nat)
    (within : cycle ≤ horizon) :
    (powerUp.run answers cycle).Follows word
      (powerUp.followed answers word cycle) := by
  induction cycle with
  | zero =>
      exact follows_reset powerUp word
  | succ cycle inductionHypothesis =>
      exact
        (inductionHypothesis (Nat.le_of_succ_le within)).clock program
          (noMul cycle within) (serves cycle within)

/--
On a program that neither loads nor stores nor names the last register, under
any fetch timing, and as long as no multiplication is in the reorder buffer
when a taken branch commits, the commits are the beginning of the execution of
the sequential machine.
-/
theorem commits_eq_execution
    (program : RegisterProgram word)
    (serves : powerUp.Serves answers word horizon)
    (noMul :
      ∀ cycle,
        cycle < horizon → (powerUp.run answers cycle).FlushesNoMul) :
    (powerUp.commits answers horizon).map RobCommit.architectural =
      SequentialMachine.execution word
        (powerUp.commits answers horizon).length := by
  have follows := run_follows program serves noMul
  have events :
      (powerUp.commits answers horizon).map RobCommit.architectural =
        Clocked.collect
          (fun cycle =>
            if (powerUp.run answers cycle).commit.valid then
              some ((powerUp.followed answers word cycle).commit word)
            else
              none) horizon := by
    rw [commits, Clocked.map_collect]
    apply Clocked.collect_congr
    intro cycle before
    split
    · rename_i valid
      exact congrArg some ((follows cycle before.le).commit_eq valid)
    · rfl
  have length := congrArg List.length events
  rw [List.length_map] at length
  rw [events, length]
  refine
    (Clocked.collect_eq_trace (powerUp.followed answers word) ?_ ?_ ?_).1
  · intro cycle event _ emits
    split at emits
    · exact (Option.some.inj emits).symm
    · cases emits
  · intro cycle event _ emits
    split at emits
    · rename_i valid
      exact following_of_commit valid
    · cases emits
  · intro cycle _ silent
    split at silent
    · cases silent
    · rename_i noCommit
      exact following_of_silent (Bool.not_eq_true _ ▸ noCommit)

end Run

end Datapath

namespace Core

variable {powerUp : Core} {program : Memory} {horizon : Nat}

/-- The datapath of the core is the datapath under the timing of its
instruction cache. -/
theorem run_datapath_eq (powerUp : Core) (cycle : Nat) :
    powerUp.datapath.run (fun earlier => (powerUp.run earlier).answer) cycle =
      (powerUp.run cycle).datapath :=
  (powerUp.run_datapath cycle).symm

/-- The fetch path serves the program from which it is filled. -/
theorem serves_program (fetches : powerUp.FetchesProgram program horizon) :
    powerUp.datapath.Serves (fun cycle => (powerUp.run cycle).answer)
      (programWord program) horizon := by
  intro cycle before answered
  rw [powerUp.run_datapath_eq]
  have earlier : powerUp.FetchesProgram program cycle :=
    fun other within => fetches other (Nat.lt_trans within before)
  exact (powerUp.run_coherent earlier).instr_eq answered

/-- No multiplication is flushed in this cycle. -/
def flushesNoMul (core : Core) : Bool :=
  !core.datapath.rob.flush ||
    (List.finRange 16).all fun slot =>
      !(core.datapath.rob.robQ slot).valid ||
        !(core.datapath.rob.robQ slot).isMul

theorem flushesNoMul_sound
    {core : Core}
    (check : flushesNoMul core = true) :
    core.datapath.FlushesNoMul := by
  intro flushes slot valid
  simp only [flushesNoMul, flushes, Bool.not_true, Bool.false_or,
    List.all_eq_true, List.mem_finRange, true_implies, Bool.or_eq_true,
    Bool.not_eq_true'] at check
  rcases check slot with invalid | notMul
  · rw [valid] at invalid
    cases invalid
  · exact notMul

/-- A multiplication that feeds an addition, and a branch over an instruction
that depends on both. -/
def squareAndBranch : List Bus32 :=
  [ 0x00300093, -- addi x1, x0, 3
    0x02108133, -- mul x2, x1, x1
    0x001101b3, -- add x3, x2, x1
    0x00318463, -- beq x3, x3, 8
    0x00100213, -- addi x4, x0, 1
    0x002182b3 ] -- add x5, x3, x2

/-- A property of all words of a memory that holds a program. -/
theorem programWord_holding
    {program : List Bus32}
    (property : Bus32 → Prop)
    (onProgram : ∀ word ∈ program, property word)
    (behind : property 0x00000013)
    (outside : property 0)
    (pc : Bus32) :
    property (programWord (Memory.holding program) pc) := by
  simp only [programWord, Memory.readMem]
  split
  · simp only [Memory.holding, List.getD_eq_getElem?_getD]
    cases held : program[(Memory.index (wordAligned pc)).toNat]? with
    | none =>
        exact behind
    | some word =>
        exact onProgram word (List.mem_of_getElem? held)
  · exact outside

/-- The commits of the program are those of the sequential machine. -/
theorem commits_eq_execution_squareAndBranch :
    ((withProgram squareAndBranch).datapath.commits
          (fun cycle => ((withProgram squareAndBranch).run cycle).answer)
          40).map RobCommit.architectural =
      SequentialMachine.execution
        (programWord (Memory.holding squareAndBranch))
        ((withProgram squareAndBranch).datapath.commits
          (fun cycle => ((withProgram squareAndBranch).run cycle).answer)
          40).length := by
  have passed :
      Strict.always Core.clock
        (fun core =>
          readsProgram (Memory.holding squareAndBranch) core &&
            flushesNoMul core) 40
        (withProgram squareAndBranch).reset = true := by
    decide +kernel
  generalize withProgram squareAndBranch = powerUp at passed ⊢
  have checks :
      ∀ cycle,
        cycle < 40 →
        readsProgram (Memory.holding squareAndBranch) (powerUp.run cycle) =
            true ∧
          flushesNoMul (powerUp.run cycle) = true := by
    intro cycle before
    have check := check_run passed before.le
    rwa [Bool.and_eq_true] at check
  have onProgram :
      squareAndBranch.all (fun word => decide (RegisterWord word)) = true := by
    decide +kernel
  have registers :
      RegisterProgram (programWord (Memory.holding squareAndBranch)) :=
    programWord_holding RegisterWord
      (fun word member =>
        of_decide_eq_true (List.all_eq_true.mp onProgram word member))
      (by decide +kernel) (by decide +kernel)
  apply Datapath.commits_eq_execution registers
  · exact
      serves_program
        (fetchesProgram_of_reads fun cycle before => (checks cycle before).1)
  · intro cycle before
    rw [run_datapath_eq]
    exact flushesNoMul_sound (checks cycle before).2

end Core

end Tartaruga
