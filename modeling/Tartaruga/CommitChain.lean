import Tartaruga.FetchCoherence
import Tartaruga.RegisterFile

namespace Tartaruga

/-!
# The chain of committed program counters

The reorder buffer, decode and fetch hold consecutive instructions: from the
next one to commit, through the occupied slots and decode, up to the program
counter.  Every clock edge keeps this path, whatever stalls and whatever is
written back; a flush restarts it at the target that the commit shows.
-/

/-- The program counter so many instructions further on. -/
def pcAfter (pc : Bus32) (count : Nat) : Bus32 :=
  pc + BitVec.ofNat 32 (4 * count)

@[simp] theorem pcAfter_zero (pc : Bus32) : pcAfter pc 0 = pc := by
  simp [pcAfter]

theorem pcAfter_succ (pc : Bus32) (count : Nat) :
    pcAfter pc (count + 1) = pcAfter pc count + 4 := by
  have next :
      BitVec.ofNat 32 (4 * (count + 1)) = BitVec.ofNat 32 (4 * count) + 4 := by
    rw [Nat.mul_add, BitVec.ofNat_add]
    rfl
  rw [pcAfter, pcAfter, next, BitVec.add_assoc]

theorem pcAfter_add_four (pc : Bus32) (count : Nat) :
    pcAfter (pc + 4) count = pcAfter pc (count + 1) := by
  rw [pcAfter_succ, pcAfter, pcAfter, BitVec.add_assoc, BitVec.add_assoc,
    BitVec.add_comm 4]

/-- The program counter that follows a commit. -/
def RobCommit.nextPc (commit : RobCommit) : Bus32 :=
  if commit.branchTaken then commit.newPc else commit.pc + 4

namespace Rob

variable {rob : Rob}

/-- A commit shows the entry at the head. -/
theorem commit_head (commits : rob.commitValid = true) :
    rob.commit.pc = (rob.robQ rob.headPtrQ).own.pc ∧
      rob.commit.instr = (rob.robQ rob.headPtrQ).own.instr := by
  simp only [commit, commits]
  exact ⟨rfl, rfl⟩

theorem commit_valid : rob.commit.valid = rob.commitValid := by
  simp only [commit]
  cases commits : rob.commitValid <;> rfl

/-- What enters without a flush is occupied after the edge, or committed. -/
theorem WellFormed.occupancy_add
    {alloc : RobAlloc}
    (wellFormed : rob.WellFormed)
    (admitted : rob.Admits alloc)
    (noFlush : rob.flush = false)
    (wb : RobWb) :
    (rob.clock alloc wb).occupancy +
        (if rob.commitValid = true then 1 else 0) =
      rob.occupancy + (if alloc.validDecode = true then 1 else 0) := by
  have moved := wellFormed.occupancy_clock admitted wb
  rw [noFlush, if_neg Bool.false_ne_true] at moved
  rw [moved]
  by_cases commits : rob.commitValid = true
  · have positive := wellFormed.occupancy_pos commits
    rw [if_pos commits]
    exact Nat.sub_add_cancel (Nat.le_add_right_of_le positive)
  · rw [if_neg commits]
    rfl

end Rob

namespace Datapath

variable {core : Datapath} {answer : FetchAnswer} {word : Bus32 → Bus32}
  {expected : Bus32}

/-- The program counter that the next commit is to show, after this cycle. -/
def expectedD (core : Datapath) (expected : Bus32) : Bus32 :=
  if core.commit.valid then core.commit.nextPc else expected

/-- The instructions in the reorder buffer, in decode and in front of fetch
follow each other, from the expected one on. -/
structure OnPath
    (core : Datapath)
    (word : Bus32 → Bus32)
    (expected : Bus32) :
    Prop where
  entries :
    ∀ slot,
      (core.rob.robQ slot).valid = true →
      (core.rob.robQ slot).own.pc =
          pcAfter expected (Ring.dist core.rob.headPtrQ slot) ∧
        (core.rob.robQ slot).own.instr =
          word (core.rob.robQ slot).own.pc
  decode :
    core.validDecode = true →
    core.pcDecode = pcAfter expected core.rob.occupancy ∧
      core.instructionQ = word core.pcDecode
  fetch :
    core.pcQ =
      pcAfter expected
        (core.rob.occupancy + if core.validDecode = true then 1 else 0)

theorem onPath_reset (core : Datapath) (word : Bus32 → Bus32) :
    core.reset.OnPath word 0 where
  entries := fun slot valid => by cases valid
  decode := fun valid => by cases valid
  fetch := rfl

/-- What allocation stores of the instruction in decode. -/
theorem robAlloc_identity (core : Datapath) (answer : FetchAnswer) :
    (core.robAlloc answer).own.pc = core.pcDecode ∧
      (core.robAlloc answer).own.instr = core.instructionQ :=
  ⟨decoder_pc _ _ _ _, decoder_instr _ _ _ _⟩

/-- A commit shows the expected program counter and its instruction. -/
theorem OnPath.commit
    (path : core.OnPath word expected)
    (commits : core.commit.valid = true) :
    core.commit.pc = expected ∧ core.commit.instr = word expected := by
  have headCommits : core.rob.commitValid = true :=
    Rob.commit_valid.symm.trans commits
  have valid := (Rob.commitValid_iff.mp headCommits).1
  obtain ⟨samePc, sameInstr⟩ := Rob.commit_head headCommits
  obtain ⟨isExpected, isWord⟩ := path.entries _ valid
  rw [Ring.dist_self, pcAfter_zero] at isExpected
  rw [isExpected] at samePc isWord
  exact ⟨samePc, sameInstr.trans isWord⟩

/-- A flush restarts the path. -/
theorem onPath_of_flush
    (wellFormed : core.rob.WellFormed)
    (flushes : core.rob.flush = true) :
    (core.clock answer).OnPath word (core.expectedD expected) := by
  have taken : core.commit.branchTaken = true :=
    Rob.commit_branchTaken.trans flushes
  have commits : core.commit.valid = true :=
    Rob.commit_valid.trans (Rob.commitValid_of_flush flushes)
  have expects : core.expectedD expected = core.commit.newPc := by
    simp only [expectedD, RobCommit.nextPc, commits, taken, if_true]
  have empty : (core.clock answer).rob.occupancy = 0 :=
    (wellFormed.occupancy_clock robAlloc_admits core.robWb).trans
      (if_pos flushes)
  have undecoded : (core.clock answer).validDecode = false := by
    simp only [clock, taken, if_true]
  constructor
  · intro slot valid
    have noFlush := (Rob.robD_valid.mp valid).1
    rw [flushes] at noFlush
    cases noFlush
  · intro valid
    rw [undecoded] at valid
    cases valid
  · rw [empty, undecoded, expects]
    simp [clock, pcD, taken]

section NoFlush

variable (wellFormed : core.rob.WellFormed)
  (path : core.OnPath word expected)
  (noFlush : core.rob.flush = false)

/-- The number of instructions that this cycle commits. -/
def committing (core : Datapath) : Nat :=
  if core.rob.commitValid = true then 1 else 0

include path noFlush in
/-- Without a flush the path goes on from the same place. -/
theorem OnPath.pcAfter_expectedD (count : Nat) :
    pcAfter (core.expectedD expected) count =
      pcAfter expected (count + core.committing) := by
  have notTaken : core.commit.branchTaken = false :=
    Rob.commit_branchTaken.trans noFlush
  have sameValid : core.commit.valid = core.rob.commitValid :=
    Rob.commit_valid
  simp only [expectedD, committing, RobCommit.nextPc, notTaken, sameValid]
  by_cases commits : core.rob.commitValid = true
  · rw [if_pos commits, if_pos commits,
      (path.commit (sameValid.trans commits)).1]
    exact pcAfter_add_four expected count
  · rw [if_neg commits, if_neg commits]
    rfl

include wellFormed noFlush in
/-- What decode hands over is occupied after the edge, or committed. -/
theorem occupancy_add_committing (answer : FetchAnswer) :
    (core.clock answer).rob.occupancy + core.committing =
      core.rob.occupancy +
        if core.allocates answer = true then 1 else 0 :=
  wellFormed.occupancy_add robAlloc_admits noFlush core.robWb

include path noFlush

/-- The occupied slots stay on the path. -/
theorem OnPath.entries_clock
    (slot : RobIdx)
    (valid : ((core.clock answer).rob.robQ slot).valid = true) :
    ((core.clock answer).rob.robQ slot).own.pc =
        pcAfter (core.expectedD expected)
          (Ring.dist (core.clock answer).rob.headPtrQ slot) ∧
      ((core.clock answer).rob.robQ slot).own.instr =
        word ((core.clock answer).rob.robQ slot).own.pc := by
  obtain ⟨_, stays, source⟩ := Rob.robD_valid.mp valid
  have moved :
      Ring.dist (core.clock answer).rob.headPtrQ slot + core.committing =
        Ring.dist core.rob.headPtrQ slot :=
    Rob.WellFormed.dist_headPtrD noFlush stays
  rw [path.pcAfter_expectedD noFlush, moved, own_clock]
  by_cases allocated : core.rob.allocates (core.robAlloc answer) slot
  · have decoded := allocates_iff.mp allocated.1
    obtain ⟨isExpected, isWord⟩ := path.decode decoded.2.1
    obtain ⟨samePc, sameInstr⟩ := robAlloc_identity core answer
    rw [if_pos allocated, samePc, sameInstr,
      (Rob.WellFormed.allocates_iff.mp allocated).2]
    exact ⟨isExpected, isWord⟩
  · rw [if_neg allocated]
    exact path.entries slot (source.resolve_left allocated)

include wellFormed

/-- What fetch hands over is the instruction behind decode. -/
theorem OnPath.moves_clock
    (shows : answer.valid = true → answer.instr = word core.pcQ)
    (moves : core.stall answer = false) :
    (core.clock answer).OnPath word (core.expectedD expected) := by
  have notTaken : core.commit.branchTaken = false :=
    Rob.commit_branchTaken.trans noFlush
  have answered : answer.valid = true := by
    simp only [stall, Bool.or_eq_false_iff, Bool.not_eq_false'] at moves
    exact moves.1.1.2
  have allocates : core.allocates answer = core.validDecode := by
    rw [Bool.eq_iff_iff, allocates_iff]
    simp only [moves, noFlush, true_and, and_true]
  have occupied := occupancy_add_committing wellFormed noFlush answer
  rw [allocates] at occupied
  have fetched := path.fetch
  rw [← occupied] at fetched
  have valid : (core.clock answer).validDecode = true := by
    simp [clock, notTaken, moves, answered]
  refine ⟨path.entries_clock noFlush, ?_, ?_⟩
  · intro _
    rw [path.pcAfter_expectedD noFlush]
    simp only [clock, notTaken, moves, Bool.not_false, if_true, if_false,
      Bool.false_eq_true]
    exact ⟨fetched, shows answered⟩
  · rw [valid, if_pos rfl, path.pcAfter_expectedD noFlush,
      Nat.add_right_comm, pcAfter_succ, ← fetched]
    simp [clock, pcD, notTaken, moves]

/-- A stalled cycle keeps decode and fetch where they are. -/
theorem OnPath.stall_clock (stalls : core.stall answer = true) :
    (core.clock answer).OnPath word (core.expectedD expected) := by
  have notTaken : core.commit.branchTaken = false :=
    Rob.commit_branchTaken.trans noFlush
  have allocates : core.allocates answer = false := by
    rw [← Bool.not_eq_true, allocates_iff, stalls]
    simp
  have occupied := occupancy_add_committing wellFormed noFlush answer
  rw [allocates, if_neg Bool.false_ne_true, Nat.add_zero] at occupied
  have sameDecode : (core.clock answer).validDecode = core.validDecode := by
    simp [clock, notTaken, stalls]
  have samePc : (core.clock answer).pcDecode = core.pcDecode := by
    simp [clock, notTaken, stalls]
  have sameInstr :
      (core.clock answer).instructionQ = core.instructionQ := by
    simp [clock, notTaken, stalls]
  have sameFetch : (core.clock answer).pcQ = core.pcQ := by
    simp [clock, pcD, notTaken, stalls]
  refine ⟨path.entries_clock noFlush, ?_, ?_⟩
  · intro valid
    rw [path.pcAfter_expectedD noFlush, occupied, samePc, sameInstr]
    exact path.decode (sameDecode.symm.trans valid)
  · rw [path.pcAfter_expectedD noFlush, Nat.add_right_comm, occupied,
      sameDecode, sameFetch]
    exact path.fetch

end NoFlush

/-- Every clock edge keeps the path. -/
theorem onPath_clock
    (wellFormed : core.rob.WellFormed)
    (path : core.OnPath word expected)
    (shows : answer.valid = true → answer.instr = word core.pcQ) :
    (core.clock answer).OnPath word (core.expectedD expected) := by
  cases flushes : core.rob.flush with
  | true =>
      exact onPath_of_flush wellFormed flushes
  | false =>
      cases stalls : core.stall answer with
      | true =>
          exact path.stall_clock wellFormed flushes stalls
      | false =>
          exact path.moves_clock wellFormed flushes shows stalls

end Datapath

namespace Core

/-- The fetch path of the core. -/
def fetchPath (core : Core) : FetchPath where
  icache := core.icache
  imemWrapper := core.imemWrapper

/-- The instruction at a program counter, whatever its two low bits are. -/
def programWord (program : Memory) (pc : Bus32) : Bus32 :=
  program.readMem (wordAligned pc)

/-- The lines that are fetched in the first cycles are those of the program. -/
def FetchesProgram
    (powerUp : Core)
    (program : Memory)
    (horizon : Nat) :
    Prop :=
  ∀ cycle,
    cycle < horizon →
    (powerUp.run cycle).fetchPath.Reads program
      (powerUp.run cycle).datapath.mem.memory

variable (powerUp : Core) {program : Memory} {cycle : Nat}

/-- The fetch path is coherent with the program. -/
theorem run_coherent
    (fetches : powerUp.FetchesProgram program cycle) :
    (powerUp.run cycle).fetchPath.Coherent program := by
  induction cycle with
  | zero =>
      exact FetchPath.coherent_reset program
  | succ cycle inductionHypothesis =>
      have before :=
        inductionHypothesis fun earlier before =>
          fetches earlier (Nat.lt_succ_of_lt before)
      have moved :
          (powerUp.run (cycle + 1)).fetchPath =
            (powerUp.run cycle).fetchPath.clock {
              pc := (powerUp.run cycle).datapath.pcQ
              memory := (powerUp.run cycle).datapath.mem.memory } :=
        rfl
      rw [moved]
      exact
        FetchPath.coherent_clock before (fetches cycle (Nat.lt_succ_self cycle))

/-- The program counter that the next commit is to show. -/
def expected : Nat → Bus32
  | 0 => 0
  | cycle + 1 => (powerUp.run cycle).datapath.expectedD (expected cycle)

/-- In every cycle the core holds consecutive instructions of the program. -/
theorem run_onPath (fetches : powerUp.FetchesProgram program cycle) :
    (powerUp.run cycle).datapath.OnPath (programWord program)
      (powerUp.expected cycle) := by
  induction cycle with
  | zero =>
      exact Datapath.onPath_reset _ _
  | succ cycle inductionHypothesis =>
      have earlier : powerUp.FetchesProgram program cycle :=
        fun earlier before => fetches earlier (Nat.lt_succ_of_lt before)
      exact
        Datapath.onPath_clock (powerUp.run_rob_wellFormed cycle)
          (inductionHypothesis earlier)
          (powerUp.run_coherent earlier).instr_eq

/--
Committed control flow is a chain: the first commit is at address zero, every
later one follows the commit before it, at its target if that was a taken
branch, and every commit shows the word of the program at its address.
-/
theorem commits_chain (fetches : powerUp.FetchesProgram program cycle) :
    (powerUp.commits cycle).IsChain
        (fun before after => after.pc = before.nextPc) ∧
      (∀ first ∈ (powerUp.commits cycle).head?, first.pc = 0) ∧
      ∀ commit ∈ powerUp.commits cycle,
        commit.instr = program.readMem (wordAligned commit.pc) := by
  have shown :
      ∀ earlier commit,
        earlier < cycle →
        (if (powerUp.run earlier).datapath.commit.valid = true then
          some (powerUp.run earlier).datapath.commit else none) =
            some commit →
        commit = (powerUp.run earlier).datapath.commit ∧
          commit.valid = true ∧
          commit.pc = powerUp.expected earlier ∧
          commit.instr = programWord program (powerUp.expected earlier) := by
    intro earlier commit before emits
    split at emits
    · rename_i commits
      cases emits
      have path :=
        powerUp.run_onPath fun cycle below =>
          fetches cycle (Nat.lt_trans below before)
      exact ⟨rfl, commits, path.commit commits⟩
    · cases emits
  have advanced :
      ∀ earlier commit,
        earlier < cycle →
        (if (powerUp.run earlier).datapath.commit.valid = true then
          some (powerUp.run earlier).datapath.commit else none) =
            some commit →
        powerUp.expected (earlier + 1) = commit.nextPc := by
    intro earlier commit before emits
    obtain ⟨rfl, commits, _⟩ := shown earlier commit before emits
    simp only [expected, Datapath.expectedD, commits, if_true]
  have kept :
      ∀ earlier,
        earlier < cycle →
        (if (powerUp.run earlier).datapath.commit.valid = true then
          some (powerUp.run earlier).datapath.commit else none) =
            none →
        powerUp.expected (earlier + 1) = powerUp.expected earlier := by
    intro earlier _ silent
    split at silent
    · cases silent
    · rename_i noCommit
      simp only [expected, Datapath.expectedD, noCommit, if_false,
        Bool.false_eq_true]
  obtain ⟨chain, starts, _⟩ :=
    Clocked.collect_chain
      (fun earlier commit before emits =>
        (shown earlier commit before emits).2.2.1)
      advanced kept
  refine ⟨chain, starts, ?_⟩
  intro commit member
  obtain ⟨earlier, before, emits⟩ := Clocked.mem_collect.mp member
  obtain ⟨_, _, isExpected, isWord⟩ := shown earlier commit before emits
  rw [isExpected]
  exact isWord

/-- The line that is read in this cycle, if one is, is that of the program. -/
def readsProgram (program : Memory) (core : Core) : Bool :=
  !(core.imemWrapper.reqPipe 4).valid ||
    (List.finRange 16).all fun word =>
      ImemWrapper.readLine core.datapath.mem.memory
          (core.imemWrapper.reqPipe 4).addr word ==
        ImemWrapper.readLine program (core.imemWrapper.reqPipe 4).addr word

/-- The lines of the program are fetched if every cycle reads them. -/
theorem fetchesProgram_of_reads
    {powerUp : Core}
    {program : Memory}
    {horizon : Nat}
    (reads :
      ∀ cycle,
        cycle < horizon → readsProgram program (powerUp.run cycle) = true) :
    powerUp.FetchesProgram program horizon := by
  intro cycle before served
  have check := reads cycle before
  funext word
  change ((powerUp.run cycle).imemWrapper.reqPipe 4).valid = true at served
  simp only [readsProgram, served, Bool.not_true, Bool.false_or,
    List.all_eq_true, List.mem_finRange, true_implies, beq_iff_eq] at check
  exact check word

/-- A jump over an instruction to a store, a load and a multiplication. -/
def jumpToStore : List Bus32 :=
  [ 0x0080006f, -- jal x0, 8
    0x00100093, -- addi x1, x0, 1
    0x20102023, -- sw x1, 512(x0)
    0x24002283, -- lw x5, 576(x0)
    0x025282b3 ] -- mul x5, x5, x5

/-- The commits of the program form a chain. -/
theorem commits_chain_jumpToStore :
    ((withProgram jumpToStore).commits 50).IsChain
        (fun before after => after.pc = before.nextPc) ∧
      (∀ first ∈ ((withProgram jumpToStore).commits 50).head?,
        first.pc = 0) ∧
      ∀ commit ∈ (withProgram jumpToStore).commits 50,
        commit.instr =
          (Memory.holding jumpToStore).readMem (wordAligned commit.pc) := by
  have passed :
      Strict.always Core.clock
        (readsProgram (Memory.holding jumpToStore)) 50
        (withProgram jumpToStore).reset = true := by
    decide +kernel
  exact
    commits_chain _
      (fetchesProgram_of_reads fun _ before => check_run passed before.le)

end Core

end Tartaruga
