import Tartaruga.AccessValues
import Tartaruga.SequentialRefinement

namespace Tartaruga

/-!
# The pipeline follows the machine with a memory

As long as no index is handed out twice and every load that is passed on gets
the word of the machine's memory, the core computes what the machine computes;
a store that has passed the memory stage stands in the store buffer as the
machine performs it.
-/

/-- The record says whether the instruction is a store. -/
def RobOwn.StoreRecorded (own : RobOwn) : Prop :=
  own.storeToMem = (decoder own.pc own.instr 0 0).storeToMem

namespace Datapath

variable {core : Datapath} {answer : FetchAnswer} {instr : InstrData}
  {place : Place} {slot : RobIdx} {word : Bus32 → Bus32}
  {machine : MemoryMachine} {register : RegAddr}

/-- The machine in front of the instruction that owns the slot. -/
def standing
    (core : Datapath)
    (word : Bus32 → Bus32)
    (machine : MemoryMachine)
    (slot : RobIdx) :
    MemoryMachine :=
  machine.after word (Ring.dist core.rob.headPtrQ slot)

/-- No branch is taken on the way from the head to the slot. -/
def StraightTo
    (core : Datapath)
    (word : Bus32 → Bus32)
    (machine : MemoryMachine)
    (slot : RobIdx) :
    Prop :=
  machine.Straight word (Ring.dist core.rob.headPtrQ slot)

/-- A load that the memory stage passes on gets the word of the memory of the
machine. -/
def AnswersLoads
    (core : Datapath)
    (word : Bus32 → Bus32)
    (machine : MemoryMachine) :
    Prop :=
  ∀ instr,
    core.Carries .exeToMem instr →
    (core.rob.robQ instr.robIdx).valid = true →
    core.StraightTo word machine instr.robIdx →
    instr.wbOrigin = .mem →
    core.memToWbD.valid = true →
    core.mem.wbResult core.exeToMemQ =
      (core.standing word machine instr.robIdx).memory.readMem
        core.exeToMemQ.result

/-- What the record of decode satisfies, the records of the entries go on
satisfying. -/
theorem own_entries_clock
    (property : RobOwn → Prop)
    (decoded : property core.decoded.own)
    (entries :
      ∀ slot,
        (core.rob.robQ slot).valid = true →
        property (core.rob.robQ slot).own) :
    ∀ slot,
      ((core.clock answer).rob.robQ slot).valid = true →
      property ((core.clock answer).rob.robQ slot).own := by
  intro slot valid
  rw [own_clock]
  by_cases allocated : core.rob.allocates (core.robAlloc answer) slot
  · rw [if_pos allocated]
    exact decoded
  · rw [if_neg allocated]
    exact entries slot
      ((Rob.robD_valid.mp valid).2.2.resolve_left allocated)

/-- Decode records what it decodes. -/
theorem decoded_storeRecorded : core.decoded.own.StoreRecorded := by
  have samePc : core.decoded.own.pc = core.pcDecode :=
    decoder_pc _ _ _ _
  have sameInstr : core.decoded.own.instr = core.instructionQ :=
    decoder_instr _ _ _ _
  rw [RobOwn.StoreRecorded, samePc, sameInstr]
  change core.decoded.storeToMem = _
  rw [decoded, decoder_relabelled core.pcDecode core.instructionQ _ _
    core.pcDecode]
  rfl

/-- The core has done what the machine has done, and holds what the machine is
about to do. -/
structure FollowsAccesses
    (core : Datapath)
    (word : Bus32 → Bus32)
    (machine : MemoryMachine) :
    Prop where
  path : core.OnPath word machine.pc
  ofProgram : core.OfProgram word
  decodedEntries : core.DecodedEntries
  storeEntries :
    ∀ slot,
      (core.rob.robQ slot).valid = true →
      (core.rob.robQ slot).own.StoreRecorded
  registers :
    ∀ register,
      register ≠ 31 → core.regfile register = machine.registers register
  entries :
    ∀ slot,
      (core.rob.robQ slot).valid = true →
      (core.rob.robQ slot).completed = true →
      core.StraightTo word machine slot →
      (core.rob.robQ slot).payload.Computes word
        (core.standing word machine slot)
  carriers :
    ∀ place instr,
      core.Carries place instr →
      (core.rob.robQ instr.robIdx).valid = true →
      core.StraightTo word machine instr.robIdx →
      core.HoldsAccess word (core.standing word machine instr.robIdx) place
  stores :
    ∀ slot,
      core.Buffered slot →
      core.StraightTo word machine slot →
      (core.standing word machine slot).stored word =
        some
          ((core.mem.storeBuffer.storeBufferQ (core.bufferSlot slot)).addr,
            (core.mem.storeBuffer.storeBufferQ (core.bufferSlot slot)).data)

theorem followsAccesses_reset
    (core : Datapath)
    (word : Bus32 → Bus32)
    (memory : Memory) :
    core.reset.FollowsAccesses word (.initial memory) where
  path := onPath_reset core word
  ofProgram := fun _ _ carries => (not_carries_reset core carries).elim
  decodedEntries := fun _ valid => by cases valid
  storeEntries := fun _ valid => by cases valid
  registers := fun _ notLast => core.regfile.reset_of_ne_last notLast
  entries := fun _ valid => by cases valid
  carriers := fun _ _ carries => (not_carries_reset core carries).elim
  stores := fun _ buffered => (not_buffered_reset core buffered).elim

/-- The machine is in front of the instruction at the head. -/
theorem standing_head
    (core : Datapath)
    (word : Bus32 → Bus32)
    (machine : MemoryMachine) :
    core.StraightTo word machine core.rob.headPtrQ ∧
      core.standing word machine core.rob.headPtrQ = machine := by
  rw [StraightTo, standing, Ring.dist_self, MemoryMachine.after_zero]
  exact ⟨fun _ before => (Nat.not_lt_zero _ before).elim, rfl⟩

namespace FollowsAccesses

variable (follows : core.FollowsAccesses word machine)
  (tracked : core.Tracked)
include follows

/-- The entry that is reached is decoded like the next instruction of the
machine. -/
theorem decoded_eq
    (valid : (core.rob.robQ slot).valid = true)
    (reached : core.StraightTo word machine slot) :
    (core.rob.robQ slot).own.pc = (core.standing word machine slot).pc ∧
      decoder (core.rob.robQ slot).own.pc (core.rob.robQ slot).own.instr 0
          0 =
        (core.standing word machine slot).front.decoded word := by
  obtain ⟨isAfter, isWord⟩ := follows.path.entries slot valid
  have samePc :
      (core.rob.robQ slot).own.pc = (core.standing word machine slot).pc :=
    isAfter.trans reached.pc_after.symm
  refine ⟨samePc, ?_⟩
  rw [isWord, samePc]
  rfl

/-- The entry of a store is reached by a store of the machine. -/
theorem storeToMem_eq
    (valid : (core.rob.robQ slot).valid = true)
    (reached : core.StraightTo word machine slot) :
    (core.rob.robQ slot).storeToMem =
      ((core.standing word machine slot).front.decoded word).storeToMem := by
  rw [← (follows.decoded_eq valid reached).2]
  exact follows.storeEntries slot valid

/-- An entry that is reached writes what the machine writes. -/
theorem writes_iff
    (valid : (core.rob.robQ slot).valid = true)
    (reached : core.StraightTo word machine slot) :
    core.rob.writes register slot = true ↔
      (core.standing word machine slot).front.Writes word register := by
  have recorded := follows.decodedEntries slot valid
  have decoded := (follows.decoded_eq valid reached).2
  have sameAddr :
      (core.rob.robQ slot).addrRd =
        ((core.standing word machine slot).front.decoded word).addrRd :=
    recorded.addrRd.trans (congrArg InstrData.addrRd decoded)
  have sameEnable :
      (core.rob.robQ slot).writeEnable =
        ((core.standing word machine slot).front.decoded word).writeEnable :=
    recorded.writeEnable.trans (congrArg InstrData.writeEnable decoded)
  rw [Rob.writes_iff, SequentialMachine.Writes, ← sameAddr, ← sameEnable]
  constructor
  · intro writes
    exact ⟨writes.2.enabled, writes.2.sameAddr, writes.1⟩
  · intro writes
    exact ⟨writes.2.2, valid, writes.1, writes.2.1⟩

include tracked

/-- A carried instruction that is reached is the next one of the machine. -/
theorem isNext
    (carries : core.Carries place instr)
    (valid : (core.rob.robQ instr.robIdx).valid = true)
    (reached : core.StraightTo word machine instr.robIdx) :
    instr.IsNext word (core.standing word machine instr.robIdx).front := by
  have own := tracked.owned place instr carries valid
  obtain ⟨pc, robIdx, idDecode, decoded⟩ :=
    follows.ofProgram place instr carries
  have carriesPc : instr.pc = pc := by
    rw [decoded, decoder_pc]
  have samePc : pc = (core.standing word machine instr.robIdx).pc := by
    rw [← (follows.decoded_eq valid reached).1, own]
    exact carriesPc.symm
  exact ⟨robIdx, idDecode, samePc ▸ decoded⟩

omit follows in
/-- There is an entry in use for every instruction that the machine runs before
the one in decode. -/
theorem exists_slot
    {index : Nat}
    (within : index < core.rob.occupancy) :
    ∃ slot,
      Ring.dist core.rob.headPtrQ slot = index ∧
        (core.rob.robQ slot).valid = true := by
  have fits := Nat.lt_trans within (Ring.dist_lt _ _)
  obtain ⟨slot, isAt⟩ := Ring.exists_dist core.rob.headPtrQ fits
  refine ⟨slot, isAt, (tracked.window slot).mpr ?_⟩
  rw [isAt]
  exact within

/-- Values move on with the instruction that they belong to. -/
theorem holds_onward
    {source target : Place}
    (answers : core.AnswersLoads word machine)
    (carries : core.Carries source instr)
    (feeds : core.Feeds source target)
    (valid : (core.rob.robQ instr.robIdx).valid = true)
    (reached : core.StraightTo word machine instr.robIdx) :
    (core.clock answer).HoldsAccess word
      (core.standing word machine instr.robIdx) target := by
  refine
    holdsAccess_of_feeds tracked.mulPipe (tracked.shaped source instr carries)
      (follows.isNext tracked carries valid reached) carries feeds ?_
      (follows.carriers source instr carries valid reached)
  rintro rfl rfl isLoad
  cases feeds with
  | finish finishes =>
      exact answers instr carries valid reached isLoad finishes

/-- A value that is forwarded is what the machine computes for the instruction
it is taken from. -/
theorem forwarded
    (answers : core.AnswersLoads word machine)
    (carries : (core.clock answer).Carries place instr)
    (isForward : place ≠ .decodeToExe)
    (valid : (core.rob.robQ instr.robIdx).valid = true)
    (reached : core.StraightTo word machine instr.robIdx) :
    (core.clock answer).HoldsAccess word
      (core.standing word machine instr.robIdx) place := by
  rcases carries_clock carries with
    ⟨isFirst, _, _⟩ | ⟨source, feeds, before⟩
  · exact (isForward isFirst).elim
  · exact follows.holds_onward tracked answers before feeds valid reached

/-- The pending writer of a source, once it is solved, supplies its result. -/
theorem operand_of_writer
    (answer : FetchAnswer)
    (answers : core.AnswersLoads word machine)
    (moves : core.stallFromMem = false)
    (valid : (core.rob.robQ slot).valid = true)
    (reached : core.StraightTo word machine slot)
    (notTaken :
      (core.standing word machine slot).front.taken word = false)
    (solved : core.solvedHazard (core.rob.hazardAt slot) = true)
    (regfileData : Bus32) :
    core.operand (core.rob.hazardAt slot) regfileData =
      (core.standing word machine slot).result word := by
  have isHazard : (core.rob.hazardAt slot).hazard = true := rfl
  rw [operand, if_pos isHazard]
  cases completed : (core.rob.robQ slot).completed with
  | true =>
      have isCompleted : (core.rob.hazardAt slot).completed = true := completed
      rw [if_pos isCompleted]
      exact (follows.entries slot valid completed reached).result
  | false =>
      have notCompleted : (core.rob.hazardAt slot).completed = false :=
        completed
      simp only [solvedHazard, isHazard, notCompleted, Bool.not_true,
        Bool.false_or, Bool.or_eq_true] at solved
      rw [notCompleted, if_neg Bool.false_ne_true]
      by_cases fromExe :
          core.forwardsFromExe (core.rob.hazardAt slot) = true
      · rw [if_pos fromExe]
        simp only [forwardsFromExe, Rob.hazardAt, Bool.and_eq_true,
          beq_iff_eq, Bool.not_eq_true'] at fromExe
        obtain ⟨⟨rfl, outValid⟩, noLoad⟩ := fromExe
        have next : (core.clock answer).exeToMemQ = core.exeToMemD :=
          exeToMemQ_of_moves moves
        have carries :
            (core.clock answer).Carries .exeToMem core.exeToMemD.instr := by
          constructor
          · exact (congrArg ExeToMem.valid next).trans outValid
          · exact congrArg ExeToMem.instr next
        obtain ⟨holds, _⟩ :=
          follows.forwarded tracked answers carries (by simp) valid reached
        have isNext :
            core.exeToMemD.instr.IsNext word
              (core.standing word machine
                core.exeToMemD.instr.robIdx).front := by
          rcases carries_clock carries with
            ⟨isFirst, _, _⟩ | ⟨source, _, before⟩
          · cases isFirst
          · exact follows.isNext tracked before valid reached
        have notLoads :
            ¬ (core.standing word machine
                core.exeToMemD.instr.robIdx).Loads word := by
          intro loads
          rw [MemoryMachine.Loads, (decoded_of_isNext isNext).2.1] at loads
          rw [loads] at noLoad
          cases noLoad
        rw [MemoryMachine.result_of_not_taken notLoads notTaken,
          ← holds.1, next]
      · rw [if_neg fromExe]
        have fromMem := solved.resolve_left fromExe
        rw [if_pos fromMem]
        simp only [forwardsFromMem, Rob.hazardAt, Bool.and_eq_true,
          beq_iff_eq] at fromMem
        obtain ⟨rfl, outValid⟩ := fromMem
        have carries :
            (core.clock answer).Carries .memToWb core.memToWbD.instr :=
          ⟨outValid, rfl⟩
        have holds :=
          follows.forwarded tracked answers carries (by simp) valid reached
        exact holds.result

/-- The operand of a solved source is what the machine reads. -/
theorem operand_eq
    (answer : FetchAnswer)
    (answers : core.AnswersLoads word machine)
    (moves : core.stallFromMem = false)
    (straight : machine.Straight word core.rob.occupancy)
    (solved : core.solvedHazard (core.rob.hazard register) = true)
    (notLast : register ≠ 31) :
    core.operand (core.rob.hazard register) (core.regfile register) =
      (machine.after word core.rob.occupancy).registers register := by
  have reaches :
      ∀ {slot},
        (core.rob.robQ slot).valid = true →
        core.StraightTo word machine slot :=
    fun valid => straight.of_le ((tracked.window _).mp valid).le
  rcases tracked.window.hazard_cases register with
    ⟨isNone, silent⟩ | ⟨slot, isAt, writes, last⟩
  · have noWriter :
        ∀ index,
          0 ≤ index →
          index < 0 + core.rob.occupancy →
          ¬ (machine.after word index).front.Writes word register := by
      intro index _ within writes
      obtain ⟨slot, rfl, valid⟩ :=
        exists_slot tracked (Nat.zero_add core.rob.occupancy ▸ within)
      have isWriter := (follows.writes_iff valid (reaches valid)).mpr writes
      rw [silent slot valid] at isWriter
      cases isWriter
    have kept :
        (machine.after word (0 + core.rob.occupancy)).registers register =
          machine.registers register :=
      (MemoryMachine.registerCell word register).look_of_silent noWriter
    rw [Nat.zero_add] at kept
    rw [isNone, kept]
    exact follows.registers register notLast
  · have valid := (Rob.writes_iff.mp writes).2.valid
    have within := (tracked.window slot).mp valid
    have isLast :
        ∀ later,
          Ring.dist core.rob.headPtrQ slot < later →
          later < core.rob.occupancy →
          ¬ (machine.after word later).front.Writes word register := by
      intro later further within writes
      obtain ⟨other, rfl, otherValid⟩ := exists_slot tracked within
      have isWriter :=
        (follows.writes_iff otherValid (reaches otherValid)).mpr writes
      rw [last other otherValid further] at isWriter
      cases isWriter
    have written :
        (machine.after word core.rob.occupancy).registers register =
          (core.standing word machine slot).result word :=
      (MemoryMachine.registerCell word register).look_of_last
        ((follows.writes_iff valid (reaches valid)).mp writes) within isLast
    rw [written, isAt]
    rw [isAt] at solved
    exact
      follows.operand_of_writer tracked answer answers moves valid
        (reaches valid) (straight _ within) solved _

omit tracked

/-- The head has completed with what the machine computes. -/
theorem head_computes (commits : core.rob.commitValid = true) :
    (core.rob.robQ core.rob.headPtrQ).payload.Computes word machine := by
  obtain ⟨inUse, completed⟩ := Rob.commitValid_iff.mp commits
  obtain ⟨reached, atHead⟩ := core.standing_head word machine
  have computes :=
    follows.entries core.rob.headPtrQ inUse completed reached
  rwa [atHead] at computes

/-- A commit shows what the machine shows. -/
theorem commit_eq (commits : core.commit.valid = true) :
    core.commit.architectural = machine.commit word := by
  have headCommits : core.rob.commitValid = true :=
    Rob.commit_valid.symm.trans commits
  have computes := follows.head_computes headCommits
  have headValid := (Rob.commitValid_iff.mp headCommits).1
  have recorded := follows.decodedEntries _ headValid
  obtain ⟨samePc, sameInstr⟩ := follows.path.commit commits
  obtain ⟨reached, atHead⟩ := core.standing_head word machine
  have decoded := (follows.decoded_eq headValid reached).2
  rw [atHead] at decoded
  have sameAddr :
      core.commit.rdAddr = (machine.front.decoded word).addrRd := by
    rw [← decoded, ← recorded.addrRd]
    simp only [commit, Rob.commit, headCommits, if_true]
    rfl
  have sameEnable :
      core.commit.writeEnable =
        (machine.front.decoded word).writeEnable := by
    rw [← decoded, ← recorded.writeEnable]
    simp only [commit, Rob.commit, headCommits, if_true]
    rfl
  have sameResult : core.commit.result = machine.result word := by
    rw [← computes.result]
    simp only [commit, Rob.commit, headCommits, if_true]
    rfl
  have sameTaken :
      core.commit.branchTaken = machine.front.taken word := by
    rw [← computes.branchTaken]
    simp only [commit, Rob.commit, headCommits, if_true]
    rfl
  simp only [RobCommit.architectural, MemoryMachine.commit,
    SequentialMachine.commit, samePc, sameInstr, sameAddr, sameEnable,
    sameResult, sameTaken]
  cases taken : machine.front.taken word with
  | true =>
      have sameTarget :
          core.commit.newPc = machine.front.target word := by
        rw [← computes.newPc taken]
        simp only [commit, Rob.commit, headCommits, if_true]
        rfl
      rw [sameTarget]
  | false =>
      rfl

/-- A commit hands the store of the machine to the store buffer. -/
theorem store_of_commit (commits : core.commit.valid = true) :
    machine.stored word =
      if core.commit.storeToMem then
        some
          ((core.mem.storeBuffer.storeBufferQ
              core.commit.storeBufferIdx).addr,
            (core.mem.storeBuffer.storeBufferQ
              core.commit.storeBufferIdx).data)
      else
        none := by
  obtain ⟨reached, atHead⟩ := core.standing_head word machine
  have headCommits : core.rob.commitValid = true :=
    Rob.commit_valid.symm.trans commits
  have headValid := (Rob.commitValid_iff.mp headCommits).1
  have isStore := follows.storeToMem_eq headValid reached
  rw [atHead] at isStore
  cases commitsStore : core.commit.storeToMem with
  | true =>
      obtain ⟨_, buffered, names, _⟩ := buffered_of_commit commitsStore
      have stored := follows.stores _ buffered reached
      rw [atHead, names] at stored
      rw [stored, if_pos rfl]
  | false =>
      rw [if_neg Bool.false_ne_true, MemoryMachine.stored, if_neg]
      rw [← isStore]
      simp only [commit, Rob.commit, headCommits, if_true] at commitsStore
      rw [commitsStore]
      exact Bool.false_ne_true

end FollowsAccesses

/-- The machine makes a step for every commit. -/
def runsOn
    (core : Datapath)
    (word : Bus32 → Bus32)
    (machine : MemoryMachine) :
    MemoryMachine :=
  machine.after word core.committing

theorem runsOn_of_commit (commits : core.commit.valid = true) :
    core.runsOn word machine = machine.step word := by
  have headCommits : core.rob.commitValid = true :=
    Rob.commit_valid.symm.trans commits
  rw [runsOn, committing, if_pos headCommits]
  rfl

theorem runsOn_of_silent (silent : core.commit.valid = false) :
    core.runsOn word machine = machine := by
  have noCommit : core.rob.commitValid = false :=
    Rob.commit_valid.symm.trans silent
  rw [runsOn, committing, noCommit, if_neg Bool.false_ne_true]
  rfl

namespace FollowsAccesses

variable (follows : core.FollowsAccesses word machine)
include follows

/-- The machine goes where the commit says. -/
theorem pc_runsOn :
    core.expectedD machine.pc = (core.runsOn word machine).pc := by
  cases valid : core.commit.valid with
  | false =>
      rw [runsOn_of_silent valid, expectedD, valid,
        if_neg Bool.false_ne_true]
  | true =>
      have shows := follows.commit_eq valid
      have samePc : core.commit.pc = machine.pc :=
        congrArg ArchitecturalCommit.pc shows
      have sameTaken : core.commit.branchTaken = machine.front.taken word :=
        congrArg ArchitecturalCommit.branchTaken shows
      have sameTarget :
          (if core.commit.branchTaken then some core.commit.newPc
              else none) =
            if machine.front.taken word then some (machine.front.target word)
              else none :=
        congrArg ArchitecturalCommit.newPc shows
      rw [runsOn_of_commit valid, expectedD, valid, if_pos rfl,
        RobCommit.nextPc, MemoryMachine.step]
      cases taken : machine.front.taken word with
      | true =>
          rw [sameTaken, taken, if_pos rfl, if_pos rfl, Option.some.injEq]
            at sameTarget
          rw [sameTaken, taken, if_pos rfl, if_pos rfl, sameTarget]
      | false =>
          rw [sameTaken, taken, if_neg Bool.false_ne_true,
            if_neg Bool.false_ne_true, samePc]

/-- The register file follows the registers of the machine. -/
theorem registers_runsOn (notLast : register ≠ 31) :
    (core.clock answer).regfile register =
      (core.runsOn word machine).registers register := by
  refine (Regfile.clock_of_ne_last core.commit notLast).trans ?_
  have before := follows.registers register notLast
  cases valid : core.commit.valid with
  | false =>
      have noWrite := Core.writeEnable_of_not_valid valid
      rw [runsOn_of_silent valid, Regfile.afterCommit, noWrite,
        if_neg (fun writes => Bool.false_ne_true writes.1)]
      exact before
  | true =>
      have shows := follows.commit_eq valid
      have sameAddr :
          core.commit.rdAddr = (machine.front.decoded word).addrRd :=
        congrArg ArchitecturalCommit.rdAddr shows
      have sameEnable :
          core.commit.writeEnable =
            (machine.front.decoded word).writeEnable :=
        congrArg ArchitecturalCommit.writeEnable shows
      have sameResult : core.commit.result = machine.result word :=
        congrArg ArchitecturalCommit.result shows
      rw [runsOn_of_commit valid]
      by_cases writes : machine.front.Writes word register
      · have written :
            (machine.step word).registers register = machine.result word :=
          if_pos writes
        obtain ⟨enabled, sameRegister, notZero⟩ := writes
        rw [written, Regfile.afterCommit, sameAddr, sameEnable, sameRegister,
          if_pos ⟨enabled, notZero⟩, Function.update_self, sameResult]
      · have kept :
            (machine.step word).registers register =
              machine.registers register :=
          if_neg writes
        rw [kept, Regfile.afterCommit]
        split
        · rename_i written
          rw [sameAddr, sameEnable] at written
          rw [Function.update_of_ne, before]
          intro sameRegister
          rw [sameAddr] at sameRegister
          exact
            writes
              ⟨written.1, sameRegister.symm, sameRegister ▸ written.2⟩
        · exact before

/-- The slots that stay belong to the same instructions of the machine. -/
theorem standing_runsOn
    (answer : FetchAnswer)
    (noFlush : core.rob.flush = false)
    (stays : ¬ core.rob.retires slot) :
    (core.clock answer).standing word (core.runsOn word machine) slot =
        core.standing word machine slot ∧
      ((core.clock answer).StraightTo word (core.runsOn word machine) slot →
        core.StraightTo word machine slot) := by
  have moved :
      Ring.dist (core.clock answer).rob.headPtrQ slot + core.committing =
        Ring.dist core.rob.headPtrQ slot :=
    Rob.WellFormed.dist_headPtrD noFlush stays
  have onward : machine.Straight word core.committing := by
    intro index before
    rw [committing] at before
    split at before
    · rename_i commits
      have first : index = 0 := Nat.lt_one_iff.mp before
      rw [Rob.flush, commits, Bool.true_and] at noFlush
      rw [first]
      exact (follows.head_computes commits).branchTaken.symm.trans noFlush
    · cases before
  constructor
  · rw [standing, standing, ← moved]
    exact Stepping.iterate_iterate _ _ _ _
  · intro reached
    have straight := Stepping.Straight.append onward reached
    rwa [moved] at straight

variable (tracked : core.Tracked)
include tracked

/-- Completed entries go on holding what the machine computes. -/
theorem entries_clock
    (noFlush : core.rob.flush = false)
    (valid : ((core.clock answer).rob.robQ slot).valid = true)
    (completed : ((core.clock answer).rob.robQ slot).completed = true)
    (reached :
      (core.clock answer).StraightTo word (core.runsOn word machine) slot) :
    ((core.clock answer).rob.robQ slot).payload.Computes word
      ((core.clock answer).standing word (core.runsOn word machine)
        slot) := by
  obtain ⟨_, stays, source⟩ := Rob.robD_valid.mp valid
  obtain ⟨sameStanding, reaches⟩ :=
    follows.standing_runsOn answer noFlush stays
  have reachedBefore := reaches reached
  rcases survives_or_allocated valid with survives | allocated
  · have wasCompleted :
        ((core.clock answer).rob.robQ slot).completed =
          if core.rob.writesBack core.robWb slot then true
          else if core.rob.allocates (core.robAlloc answer) slot then false
          else (core.rob.robQ slot).completed :=
      Rob.robD_completed
    rw [sameStanding, payload_clock]
    by_cases written : core.rob.writesBack core.robWb slot
    · rw [if_pos written]
      obtain ⟨accepted, rfl⟩ := written
      simp only [Rob.acceptsWb, Bool.and_eq_true] at accepted
      exact
        follows.carriers .memToWb core.memToWbQ.instr ⟨accepted.1, rfl⟩
          survives.2.2.2 reachedBefore
    · rw [if_neg written]
      rw [if_neg written, if_neg survives.2.2.1, completed] at wasCompleted
      exact
        follows.entries slot survives.2.2.2 wasCompleted.symm reachedBefore
  · rw [not_completed_of_allocates tracked.window allocated] at completed
    cases completed

/-- What decode hands over are the operands of the machine. -/
theorem holds_decoded
    (program : AccessProgram word)
    (answers : core.AnswersLoads word machine)
    (allocated : core.allocates answer = true)
    (straight : machine.Straight word core.rob.occupancy) :
    Exe.SameOperands (core.decodeToExeD answer)
        ((machine.after word core.rob.occupancy).front.input word) ∧
      KeepsOperand word (machine.after word core.rob.occupancy)
        (core.decodeToExeD answer).dataRs2 := by
  obtain ⟨noStall, decodes, _⟩ := allocates_iff.mp allocated
  obtain ⟨pcDecode, isWord⟩ := follows.path.decode decodes
  have samePc :
      core.pcDecode = (machine.after word core.rob.occupancy).pc :=
    pcDecode.trans straight.pc_after.symm
  have isNext :
      core.decoded.IsNext word
        (machine.after word core.rob.occupancy).front := by
    refine ⟨core.rob.robEntryAlloc, core.idDecode, ?_⟩
    rw [← samePc, ← isWord]
    rfl
  obtain ⟨robIdx, idDecode, same⟩ :=
    SequentialMachine.relabelled_of_isNext isNext
  obtain ⟨avoids, avoidsStored⟩ :
      ((machine.after word core.rob.occupancy).front.decoded word).AvoidsLast ∧
        (((machine.after word core.rob.occupancy).front.decoded
            word).storeToMem = true →
          ((machine.after word core.rob.occupancy).front.decoded
            word).addrRs2 ≠ 31) :=
    program.avoidsLast _ _ _
  have solved := solvedHazard_of_moves noStall
  have moves : core.stallFromMem = false := by
    simp only [stall, Bool.or_eq_false_iff] at noStall
    exact noStall.2
  have sameRs1 :
      core.decoded.addrRs1 =
        ((machine.after word core.rob.occupancy).front.decoded
          word).addrRs1 := by
    rw [same, InstrData.relabelled_addrRs1]
  have sameRs2 :
      core.decoded.addrRs2 =
        ((machine.after word core.rob.occupancy).front.decoded
          word).addrRs2 := by
    rw [same, InstrData.relabelled_addrRs2]
  have dataRs2 :
      core.decoded.addrRs2 ≠ 31 →
        (core.decodeToExeD answer).dataRs2 =
          ((machine.after word core.rob.occupancy).front.input
            word).dataRs2 := by
    intro notLast
    refine
      (follows.operand_eq tracked answer answers moves straight solved.2
        notLast).trans ?_
    rw [sameRs2]
    rfl
  refine ⟨⟨⟨robIdx, idDecode, same⟩, ?_, ?_, ?_⟩, ?_⟩
  · have sameInstr : core.decoded.instr = core.instructionQ :=
      decoder_instr _ _ _ _
    change immediate core.decoded.instr = immediate (word _)
    rw [sameInstr, isWord, samePc]
  · intro reads
    have notLast : core.decoded.addrRs1 ≠ 31 := by
      rw [sameRs1]
      exact avoids.1 reads
    refine
      (follows.operand_eq tracked answer answers moves straight solved.1
        notLast).trans ?_
    rw [sameRs1]
    rfl
  · intro reads
    exact dataRs2 (sameRs2 ▸ avoids.2.1 reads)
  · intro stores
    exact dataRs2 (sameRs2 ▸ avoidsStored stores)

variable (noReuse : core.reuses answer = false)
include noReuse

/-- The registers go on holding what the machine computes. -/
theorem carriers_clock
    (program : AccessProgram word)
    (answers : core.AnswersLoads word machine)
    (noFlush : core.rob.flush = false)
    (carries : (core.clock answer).Carries place instr)
    (valid : ((core.clock answer).rob.robQ instr.robIdx).valid = true)
    (reached :
      (core.clock answer).StraightTo word (core.runsOn word machine)
        instr.robIdx) :
    (core.clock answer).HoldsAccess word
      ((core.clock answer).standing word (core.runsOn word machine)
        instr.robIdx) place := by
  have stays := (Rob.robD_valid.mp valid).2.1
  obtain ⟨sameStanding, reaches⟩ :=
    follows.standing_runsOn answer noFlush stays
  have reachedBefore := reaches reached
  rw [sameStanding]
  rcases Datapath.carries_clock carries with
    ⟨rfl, allocated, rfl⟩ | ⟨source, feeds, before⟩
  · have moves : core.stall answer = false :=
      (allocates_iff.mp allocated).1
    have next :
        (core.clock answer).decodeToExeQ = core.decodeToExeD answer := by
      change core.decodeToExeNext answer = core.decodeToExeD answer
      rw [decodeToExeNext, moves]
      rfl
    have atTail :
        Ring.dist core.rob.headPtrQ core.decoded.robIdx =
          core.rob.occupancy := by
      rw [decoded_robIdx]
      rfl
    simp only [StraightTo, atTail] at reachedBefore
    simp only [HoldsAccess, Holds, next, standing, atTail]
    exact
      follows.holds_decoded tracked program answers allocated reachedBefore
  · have survives := survives_of_feeds noReuse before feeds valid
    exact
      follows.holds_onward tracked answers before feeds survives.2.2.2
        reachedBefore

/-- The stores in the store buffer go on being those of the machine. -/
theorem stores_clock
    (inFlight : core.StoresInFlight)
    (buffers : core.Matches)
    (buffered : (core.clock answer).Buffered slot)
    (reached :
      (core.clock answer).StraightTo word (core.runsOn word machine) slot) :
    ((core.clock answer).standing word (core.runsOn word machine)
        slot).stored word =
      some
        (((core.clock answer).mem.storeBuffer.storeBufferQ
            ((core.clock answer).bufferSlot slot)).addr,
          ((core.clock answer).mem.storeBuffer.storeBufferQ
            ((core.clock answer).bufferSlot slot)).data) := by
  obtain ⟨survives, before⟩ := (buffered_clock tracked noReuse).mp buffered
  obtain ⟨sameStanding, reaches⟩ :=
    follows.standing_runsOn answer survives.1 survives.2.1
  have reachedBefore := reaches reached
  rw [sameStanding, storeBuffer_clock]
  change
    _ = some
      ((core.mem.storeBuffer.storeBufferD (core.storeBufferInput answer)
          _).addr,
        (core.mem.storeBuffer.storeBufferD (core.storeBufferInput answer)
          _).data)
  rw [StoreBuffer.storeBufferD_addr, StoreBuffer.storeBufferD_data]
  rcases before with before | enters
  · have notFilled :
        ¬ core.mem.storeBuffer.fills (core.storeBufferInput answer)
          (core.bufferSlot slot) := by
      intro filled
      have free := buffers.window.fills_free filled
      have isLive := buffers.live _ before
      simp only [StoreBuffer.liveAt, free, Bool.false_and] at isLive
      cases isLive
    rw [bufferSlot_clock tracked inFlight before survives,
      if_neg notFilled, if_neg notFilled]
    exact follows.stores slot before reachedBefore
  · have fills := fills_of_enters tracked noReuse enters
    rw [bufferSlot_clock_of_enters tracked inFlight enters, if_pos fills,
      if_pos fills]
    obtain ⟨instr, carries, isStore, rfl, valid⟩ := enters.1
    have isNext := follows.isNext tracked carries valid reachedBefore
    have stores := (decoded_of_isNext isNext).2.2.1.trans isStore
    obtain ⟨⟨result, _⟩, operand⟩ :=
      follows.carriers .exeToMem instr carries valid reachedBefore
    rw [(MemoryMachine.of_access (.inr stores)).1] at result
    rw [MemoryMachine.stored_of_store stores, ← result, ← operand stores]
    rfl

/-- The core goes on following the machine. -/
theorem clock
    (program : AccessProgram word)
    (answers : core.AnswersLoads word machine)
    (inFlight : core.StoresInFlight)
    (buffers : core.Matches)
    (shows : answer.valid = true → answer.instr = word core.pcQ) :
    (core.clock answer).FollowsAccesses word (core.runsOn word machine) := by
  have noFlush :
      ∀ {slot},
        ((core.clock answer).rob.robQ slot).valid = true →
        core.rob.flush = false :=
    fun valid => (Rob.robD_valid.mp valid).1
  exact {
    path := by
      rw [← follows.pc_runsOn]
      exact onPath_clock tracked.window follows.path shows
    ofProgram := ofProgram_clock follows.path follows.ofProgram
    decodedEntries := decodedEntries_clock follows.decodedEntries
    storeEntries :=
      own_entries_clock RobOwn.StoreRecorded decoded_storeRecorded
        follows.storeEntries
    registers := fun _ notLast => follows.registers_runsOn notLast
    entries := fun _ valid completed reached =>
      follows.entries_clock tracked (noFlush valid) valid completed reached
    carriers := fun _ _ carries valid reached =>
      follows.carriers_clock tracked noReuse program answers (noFlush valid)
        carries valid reached
    stores := fun _ buffered reached =>
      follows.stores_clock tracked noReuse inFlight buffers buffered reached
  }

end FollowsAccesses

end Datapath

end Tartaruga
