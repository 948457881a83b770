import Tartaruga.CommitProgress
import Tartaruga.UntouchedMemory

namespace Tartaruga

/-!
# Programs on registers are executed

The core with its real instruction cache and its real memory runs a program on
registers to the end of any number of instructions: what has been committed is
what the sequential machine does, and the next commit is never far away.
-/

namespace Core

variable {powerUp : Core} {cycle : Nat}

/-- What the fetch path sees in a run. -/
def fetchInput (powerUp : Core) (cycle : Nat) : FetchInput where
  pc := (powerUp.run cycle).datapath.pcQ
  memory := (powerUp.run cycle).datapath.mem.memory

/-- The fetch path of the core is a run of the fetch path. -/
theorem run_fetchPath (powerUp : Core) (cycle : Nat) :
    (powerUp.run cycle).fetchPath =
      FetchPath.run powerUp.fetchInput cycle := by
  induction cycle with
  | zero =>
      rfl
  | succ cycle inductionHypothesis =>
      rw [FetchPath.run, Clocked.run, ← FetchPath.run,
        ← inductionHypothesis]
      rfl

/-- The program counter changes only when fetch has answered or a taken branch
commits. -/
theorem answered_of_pc_ne
    {core : Datapath}
    {answer : FetchAnswer}
    (changes : (core.clock answer).pcQ ≠ core.pcQ) :
    answer.valid = true ∨ core.rob.commitValid = true := by
  by_contra neither
  rw [not_or, Bool.not_eq_true, Bool.not_eq_true] at neither
  obtain ⟨unanswered, silent⟩ := neither
  have stalls : core.stall answer = true := by
    simp [Datapath.stall, unanswered]
  refine changes ?_
  change core.pcD answer = core.pcQ
  simp [Datapath.pcD, stalls, Datapath.branchTaken_of_silent silent]

/-- The instruction cache answers the core within 21 cycles, unless a commit
sends the program counter elsewhere. -/
theorem fetch_answers (powerUp : Core) :
    powerUp.datapath.Answers (fun cycle => (powerUp.run cycle).answer) 21 := by
  intro start
  obtain ⟨rank, short, waits⟩ :=
    FetchPath.exists_waits powerUp.fetchInput start
  obtain ⟨delay, inTime, hits | moves⟩ := waits.within.of_le short
  · refine ⟨delay, inTime, .inl ?_⟩
    rw [← powerUp.run_fetchPath] at hits
    exact hits
  · refine ⟨delay, inTime, ?_⟩
    rcases answered_of_pc_ne moves with answered | commits
    · exact .inl answered
    · refine .inr ?_
      rw [Datapath.CommitsAt, run_datapath_eq]
      exact commits

/-- The program that the memory holds at reset. -/
def ownWord (powerUp : Core) : Bus32 → Bus32 :=
  programWord powerUp.datapath.mem.memory

/-- The sequential machine that the core follows. -/
def followed (powerUp : Core) : Nat → SequentialMachine :=
  powerUp.datapath.followed (fun cycle => (powerUp.run cycle).answer)
    powerUp.ownWord

section Executed

variable (registers : RegisterProgram powerUp.ownWord)
  (noMul : ∀ cycle, (powerUp.run cycle).datapath.FlushesNoMul)
include registers noMul

/-- The core follows the machine in every cycle. -/
theorem run_follows (cycle : Nat) :
    (powerUp.run cycle).datapath.Follows powerUp.ownWord
      (powerUp.followed cycle) := by
  have follows :=
    Datapath.run_follows registers
      (serves_program (fetchesProgram_of_registers registers cycle))
      (fun earlier _ => by rw [run_datapath_eq]; exact noMul earlier)
      cycle (Nat.le_refl cycle)
  rwa [run_datapath_eq] at follows

/-- The commits are the beginning of the execution, and the machine that the
core follows is the one after these instructions. -/
theorem commits_and_followed (cycle : Nat) :
    (powerUp.commits cycle).map RobCommit.architectural =
        SequentialMachine.execution powerUp.ownWord
          (powerUp.commits cycle).length ∧
      powerUp.followed cycle =
        SequentialMachine.initial.after powerUp.ownWord
          (powerUp.commits cycle).length := by
  have events :
      (powerUp.commits cycle).map RobCommit.architectural =
        Clocked.collect
          (fun cycle =>
            if (powerUp.run cycle).datapath.commit.valid then
              some ((powerUp.followed cycle).commit powerUp.ownWord)
            else
              none) cycle := by
    rw [commits, Clocked.map_collect]
    apply Clocked.collect_congr
    intro earlier _
    split
    · rename_i valid
      exact
        congrArg some ((run_follows registers noMul earlier).commit_eq valid)
    · rfl
  have length := congrArg List.length events
  rw [List.length_map] at length
  rw [events, length]
  apply Clocked.collect_eq_trace powerUp.followed
  · intro earlier event _ emits
    split at emits
    · exact (Option.some.inj emits).symm
    · cases emits
  · intro earlier event _ emits
    split at emits
    · rename_i valid
      rw [followed, Datapath.followed, run_datapath_eq]
      exact Datapath.following_of_commit valid
    · cases emits
  · intro earlier _ silent
    split at silent
    · cases silent
    · rename_i noCommit
      rw [followed, Datapath.followed, run_datapath_eq]
      exact Datapath.following_of_silent (Bool.not_eq_true _ ▸ noCommit)

/-- The core commits again within 51 cycles. -/
theorem commits_within (start : Nat) :
    Clocked.Within
      (fun cycle => (powerUp.run cycle).datapath.commit.valid = true)
      start 51 := by
  have within :=
    Datapath.commits_within registers
      (fun horizon =>
        serves_program (fetchesProgram_of_registers registers horizon))
      (fun earlier => by rw [run_datapath_eq]; exact noMul earlier)
      powerUp.fetch_answers start
  obtain ⟨delay, inTime, commits⟩ := within
  refine ⟨delay, inTime, ?_⟩
  rw [Datapath.CommitsAt, run_datapath_eq] at commits
  exact Rob.commit_valid.trans commits

/-- There are as many commits as there are groups of 52 cycles. -/
theorem commits_in_time (cycle : Nat) :
    cycle / 52 ≤ (powerUp.commits cycle).length := by
  have emits :
      ∀ start,
        Clocked.Within
          (fun cycle =>
            (if (powerUp.run cycle).datapath.commit.valid then
              some (powerUp.run cycle).datapath.commit
            else
              none).isSome)
          start 51 := by
    intro start
    obtain ⟨delay, inTime, commits⟩ := commits_within registers noMul start
    exact ⟨delay, inTime, by simp [commits]⟩
  exact
    Nat.le_trans (Clocked.le_length_collect emits (cycle / 52))
      (Clocked.length_collect_le (Nat.div_mul_le_self cycle 52))

/--
A program that neither loads nor stores nor names the last register is
executed completely, from every power-up state and with the fetch path and the
memory as they are, as long as no multiplication is in the reorder buffer when
a taken branch commits.  In every cycle

* the commits are the beginning of the execution of the sequential machine;
* the register file holds what the machine holds after them, the last register
  apart;
* the memory is as it was;
* there have been as many commits as there were groups of 52 cycles.
-/
theorem registers_executed (cycle : Nat) :
    (powerUp.commits cycle).map RobCommit.architectural =
        SequentialMachine.execution powerUp.ownWord
          (powerUp.commits cycle).length ∧
      (∀ register,
        register ≠ 31 →
        (powerUp.run cycle).datapath.regfile register =
          (SequentialMachine.initial.after powerUp.ownWord
            (powerUp.commits cycle).length).registers register) ∧
      (powerUp.run cycle).datapath.mem.memory =
        powerUp.datapath.mem.memory ∧
      cycle / 52 ≤ (powerUp.commits cycle).length := by
  obtain ⟨executed, reached⟩ := commits_and_followed registers noMul cycle
  refine ⟨executed, ?_, (run_untouched registers cycle).memory.words, ?_⟩
  · intro register notLast
    rw [← reached]
    exact (run_follows registers noMul cycle).registers register notLast
  · exact commits_in_time registers noMul cycle

end Executed

/-- Without multiplications in the program none is flushed. -/
theorem flushesNoMul_of_mulFree
    (registers : RegisterProgram powerUp.ownWord)
    (mulFree :
      ∀ pc, (decoder 0 (powerUp.ownWord pc) 0 0).isMul = false)
    (cycle : Nat) :
    (powerUp.run cycle).datapath.FlushesNoMul := by
  intro _ slot valid
  have path :=
    powerUp.run_onPath (fetchesProgram_of_registers registers cycle)
  have isWord :
      ((powerUp.run cycle).datapath.rob.robQ slot).instr =
        powerUp.ownWord ((powerUp.run cycle).datapath.rob.robQ slot).pc :=
    (path.entries slot valid).2
  have relabelled :=
    decoder_relabelled ((powerUp.run cycle).datapath.rob.robQ slot).pc
      (powerUp.ownWord ((powerUp.run cycle).datapath.rob.robQ slot).pc) 0 0 0
  rw [RobEntry.isMul, isWord, relabelled, InstrData.relabelled_isMul]
  exact mulFree _

/-- A loop that counts up and jumps back. -/
def countUp : List Bus32 :=
  [ 0x00108093, -- addi x1, x1, 1
    0x00110133, -- add x2, x2, x1
    0xff9ff06f ] -- jal x0, -8

/-- The loop is a program on registers without multiplications. -/
theorem countUp_registers :
    RegisterProgram (withProgram countUp).ownWord ∧
      ∀ cycle, ((withProgram countUp).run cycle).datapath.FlushesNoMul := by
  have onProgram :
      countUp.all (fun word =>
        decide (RegisterWord word ∧ (decoder 0 word 0 0).isMul = false)) =
        true := by
    decide +kernel
  have everywhere :
      ∀ pc,
        RegisterWord ((withProgram countUp).ownWord pc) ∧
          (decoder 0 ((withProgram countUp).ownWord pc) 0 0).isMul = false :=
    programWord_holding
      (fun word => RegisterWord word ∧ (decoder 0 word 0 0).isMul = false)
      (fun word member =>
        of_decide_eq_true (List.all_eq_true.mp onProgram word member))
      (by decide +kernel) (by decide +kernel)
  have registers : RegisterProgram (withProgram countUp).ownWord :=
    fun pc => (everywhere pc).1
  exact
    ⟨registers,
      flushesNoMul_of_mulFree registers fun pc => (everywhere pc).2⟩

/-- The first 520 cycles execute ten instructions of the loop at least. -/
theorem registers_executed_countUp :
    ((withProgram countUp).commits 520).map RobCommit.architectural =
        SequentialMachine.execution (withProgram countUp).ownWord
          ((withProgram countUp).commits 520).length ∧
      (∀ register,
        register ≠ 31 →
        ((withProgram countUp).run 520).datapath.regfile register =
          (SequentialMachine.initial.after (withProgram countUp).ownWord
            ((withProgram countUp).commits 520).length).registers
            register) ∧
      ((withProgram countUp).run 520).datapath.mem.memory =
        (withProgram countUp).datapath.mem.memory ∧
      520 / 52 ≤ ((withProgram countUp).commits 520).length := by
  exact registers_executed countUp_registers.1 countUp_registers.2 520

end Core

end Tartaruga
