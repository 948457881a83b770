import Tartaruga.AccessExecution
import Tartaruga.AssembledPrograms

namespace Tartaruga

/-!
# Programs are executed

From a list of instructions to the core: the memory holds their words, and what
the core commits is an execution of the program by the instruction set.
-/

open Rv32 (Code Executes Program)

namespace MemoryMachine

variable {word : Bus32 → Bus32} {machine : MemoryMachine}

/-- An instruction of a program on registers neither loads nor stores. -/
theorem of_registers
    (machine : MemoryMachine)
    (registers : RegisterProgram word) :
    ¬machine.Loads word ∧ machine.stored word = none := by
  have only : (machine.front.decoded word).RegisterOnly :=
    registers.registerOnly machine.pc 0 0
  constructor
  · intro loads
    rw [Loads] at loads
    rcases only.origin with isAlu | ⟨isPc4, _⟩
    · rw [isAlu] at loads
      cases loads
    · rw [isPc4] at loads
      cases loads
  · rw [stored, only.noStore]
    rfl

/-- Such a program is run as without a memory. -/
theorem step_of_registers (registers : RegisterProgram word) :
    machine.step word =
      { front := machine.front.step word, memory := machine.memory } := by
  obtain ⟨noLoad, noStore⟩ := machine.of_registers registers
  simp only [step, noStore, result, if_neg noLoad]
  rfl

theorem commit_of_registers (registers : RegisterProgram word) :
    machine.commit word = machine.front.commit word := by
  obtain ⟨noLoad, _⟩ := machine.of_registers registers
  simp only [commit, result, if_neg noLoad]
  rfl

end MemoryMachine

/-- What the core does when an instruction commits: the register it writes, the
store that it frees in the store buffer, and the jump. -/
def Datapath.retired (core : Datapath) : Rv32.Retired where
  pc := core.commit.pc
  effect := {
    write :=
      if core.commit.writeEnable then
        some (core.commit.rdAddr, core.commit.result)
      else
        none
    store :=
      if core.commit.storeToMem then
        some
          ((core.mem.storeBuffer.storeBufferQ
              core.commit.storeBufferIdx).addr,
            (core.mem.storeBuffer.storeBufferQ
              core.commit.storeBufferIdx).data)
      else
        none
    jump :=
      if core.commit.branchTaken then some core.commit.newPc else none }

/-- The commit of an instruction is the instruction. -/
theorem Datapath.retired_eq
    {core : Datapath}
    {word : Bus32 → Bus32}
    {machine : MemoryMachine}
    (commit : core.commit.architectural = machine.commit word)
    (store : core.retired.effect.store = machine.stored word) :
    core.retired = machine.retired word := by
  apply Rv32.Retired.ext
  · exact congrArg ArchitecturalCommit.pc commit
  · apply Rv32.Effect.ext
    · have writeEnable := congrArg ArchitecturalCommit.writeEnable commit
      have rdAddr := congrArg ArchitecturalCommit.rdAddr commit
      have result := congrArg ArchitecturalCommit.result commit
      change core.commit.writeEnable = _ at writeEnable
      change core.commit.rdAddr = _ at rdAddr
      change core.commit.result = _ at result
      simp only [retired, writeEnable, rdAddr, result]
      rfl
    · exact store
    · exact congrArg ArchitecturalCommit.newPc commit

namespace Core

/-- The instructions that commit in the first cycles. -/
def retirements (powerUp : Core) : Nat → List Rv32.Retired :=
  Clocked.collect fun cycle =>
    if (powerUp.run cycle).datapath.commit.valid then
      some (powerUp.run cycle).datapath.retired
    else
      none

/-- There are as many of them as commits. -/
theorem length_retirements (powerUp : Core) (cycle : Nat) :
    (powerUp.retirements cycle).length =
      (powerUp.commits cycle).length := by
  have counted :
      (powerUp.retirements cycle).map (fun _ => ()) =
        (powerUp.commits cycle).map fun _ => () := by
    rw [retirements, commits, Clocked.map_collect, Clocked.map_collect]
    apply Clocked.collect_congr
    intro earlier _
    split
    · rfl
    · rfl
  have lengths := congrArg List.length counted
  rwa [List.length_map, List.length_map] at lengths

variable {powerUp : Core} {program : Program} {cycle horizon : Nat}

/-- If the core does what a machine does that runs on with every commit, an
assembled program is executed. -/
theorem executes_of_machine
    (machine : Nat → MemoryMachine)
    (starts : machine 0 = .initial powerUp.ownMemory)
    (done :
      ∀ cycle,
        cycle < horizon →
        (powerUp.run cycle).datapath.commit.valid = true →
        (powerUp.run cycle).datapath.retired =
          (machine cycle).retired powerUp.ownWord)
    (runs :
      ∀ cycle,
        machine (cycle + 1) =
          (powerUp.run cycle).datapath.runsOn powerUp.ownWord
            (machine cycle))
    (assembled : Assembled program powerUp.ownWord)
    (meets :
      program.Meets wordAccess (Rv32.State.start powerUp.ownMemory)
        WithinReach) :
    Executes wordAccess program (Rv32.State.start powerUp.ownMemory)
      (powerUp.retirements horizon) (machine horizon).state := by
  obtain ⟨shown, reached⟩ :
      powerUp.retirements horizon =
          Clocked.trace (MemoryMachine.step powerUp.ownWord)
            (MemoryMachine.retired powerUp.ownWord) (machine 0)
            (powerUp.retirements horizon).length ∧
        machine horizon =
          (MemoryMachine.step powerUp.ownWord)^[
            (powerUp.retirements horizon).length] (machine 0) := by
    apply Clocked.collect_eq_trace machine
    · intro cycle event before emits
      split at emits
      · rename_i valid
        rw [← Option.some.inj emits]
        exact done cycle before valid
      · cases emits
    · intro cycle event _ emits
      split at emits
      · rename_i valid
        exact (runs cycle).trans (Datapath.runsOn_of_commit valid)
      · cases emits
    · intro cycle _ silent
      split at silent
      · cases silent
      · rename_i noCommit
        exact
          (runs cycle).trans
            (Datapath.runsOn_of_silent (Bool.not_eq_true _ ▸ noCommit))
  have executes :=
    MemoryMachine.executes assembled meets
      (powerUp.retirements horizon).length
  rw [starts] at shown reached
  rw [← shown] at executes
  rw [reached]
  exact executes

/-- Decode has recorded the stores that are in the reorder buffer. -/
theorem run_storeRecorded (powerUp : Core) (cycle : Nat) :
    ∀ slot,
      ((powerUp.run cycle).datapath.rob.robQ slot).valid = true →
      ((powerUp.run cycle).datapath.rob.robQ slot).own.StoreRecorded := by
  induction cycle with
  | zero =>
      exact fun _ valid => by cases valid
  | succ cycle inductionHypothesis =>
      exact
        Datapath.own_entries_clock RobOwn.StoreRecorded
          Datapath.decoded_storeRecorded inductionHypothesis

/-- The machine that the core follows, with the memory that it leaves alone. -/
def followedWithMemory (powerUp : Core) (cycle : Nat) : MemoryMachine where
  front := powerUp.followed cycle
  memory := powerUp.ownMemory

/-- It runs on with every commit. -/
theorem followedWithMemory_succ
    (registers : RegisterProgram powerUp.ownWord)
    (cycle : Nat) :
    powerUp.followedWithMemory (cycle + 1) =
      (powerUp.run cycle).datapath.runsOn powerUp.ownWord
        (powerUp.followedWithMemory cycle) := by
  have next :
      powerUp.followed (cycle + 1) =
        (powerUp.run cycle).datapath.following powerUp.ownWord
          (powerUp.followed cycle) := by
    rw [followed, Datapath.followed, run_datapath_eq]
  rw [followedWithMemory, next]
  cases commits : (powerUp.run cycle).datapath.commit.valid with
  | true =>
      rw [Datapath.following_of_commit commits,
        Datapath.runsOn_of_commit commits,
        MemoryMachine.step_of_registers registers]
      rfl
  | false =>
      rw [Datapath.following_of_silent commits,
        Datapath.runsOn_of_silent commits]
      rfl

section Registers

variable (registers : RegisterProgram powerUp.ownWord)
  (noMul : ∀ cycle, (powerUp.run cycle).datapath.FlushesNoMul)
include registers noMul

/-- A program on registers commits no store. -/
theorem storeToMem_of_registers
    (commits : (powerUp.run cycle).datapath.commit.valid = true) :
    (powerUp.run cycle).datapath.commit.storeToMem = false := by
  have headCommits : (powerUp.run cycle).datapath.rob.commitValid = true :=
    Rob.commit_valid.symm.trans commits
  have headValid := (Rob.commitValid_iff.mp headCommits).1
  have recorded := run_storeRecorded powerUp cycle _ headValid
  have isWord :=
    ((run_follows registers noMul cycle).path.entries _ headValid).2
  have shows :
      (powerUp.run cycle).datapath.commit.storeToMem =
          ((powerUp.run cycle).datapath.rob.robQ
            (powerUp.run cycle).datapath.rob.headPtrQ).own.storeToMem := by
    simp only [Datapath.commit, Rob.commit, headCommits, if_true]
    rfl
  rw [shows, recorded, isWord]
  exact (registers.registerOnly _ 0 0).noStore

/-- An assembled program on registers is executed by the core. -/
theorem executes_registers
    (assembled : Assembled program powerUp.ownWord)
    (meets :
      program.Meets wordAccess (Rv32.State.start powerUp.ownMemory)
        WithinReach)
    (cycle : Nat) :
    Executes wordAccess program (Rv32.State.start powerUp.ownMemory)
      (powerUp.retirements cycle)
      (powerUp.followedWithMemory cycle).state := by
  apply executes_of_machine powerUp.followedWithMemory rfl ?_
    (followedWithMemory_succ registers) assembled meets
  intro earlier _ commits
  apply Datapath.retired_eq
  · rw [MemoryMachine.commit_of_registers registers]
    exact (run_follows registers noMul earlier).commit_eq commits
  · rw [(MemoryMachine.of_registers _ registers).2]
    have noStore := storeToMem_of_registers registers noMul commits
    simp [Datapath.retired, noStore]

end Registers

/-- The words of a list of plain instructions, and what is behind them, are
plain. -/
theorem plainWord_of_codes
    {codes : List Code}
    (loaded :
      powerUp.datapath.mem.memory = Memory.holding (codes.map Code.encode))
    (plain :
      ∀ code ∈ codes,
        code.accesses = false ∧ code.multiplies = false ∧
          31 ∉ code.named)
    (pc : Bus32) :
    PlainWord (powerUp.ownWord pc) := by
  rw [ownWord, loaded]
  refine programWord_holding PlainWord ?_ (by decide) (by decide) pc
  intro word member
  obtain ⟨code, isCode, rfl⟩ := List.mem_map.mp member
  obtain ⟨noAccess, noMul, avoids⟩ := plain code isCode
  exact plainWord_encode noAccess noMul avoids

/-- A memory of plain words is executed. -/
theorem executed_of_plainWords
    (plain : ∀ pc, PlainWord (powerUp.ownWord pc))
    (assembled : Assembled program powerUp.ownWord)
    (meets :
      program.Meets wordAccess (Rv32.State.start powerUp.ownMemory)
        WithinReach)
    (cycle : Nat) :
    ∃ state,
      Executes wordAccess program (Rv32.State.start powerUp.ownMemory)
          (powerUp.retirements cycle) state ∧
        (∀ register,
          register ≠ 31 →
          (powerUp.run cycle).datapath.regfile register =
            state.registers register) ∧
        (powerUp.run cycle).datapath.mem.memory = state.memory ∧
        cycle / 52 ≤ (powerUp.retirements cycle).length := by
  have registers : RegisterProgram powerUp.ownWord :=
    fun pc => (plain pc).1
  have noMul := flushesNoMul_of_mulFree registers fun pc => (plain pc).2
  refine
    ⟨_, executes_registers registers noMul assembled meets cycle, ?_,
      (run_untouched registers cycle).memory.words, ?_⟩
  · intro register notLast
    exact (run_follows registers noMul cycle).registers register notLast
  · rw [length_retirements]
    exact commits_in_time registers noMul cycle

/--
The words of a list of instructions in the memory, none of which loads, stores,
multiplies or names the last register: from every power-up state with this
memory, and in every cycle,

* the commits are an execution of the list by the instruction set;
* the register file holds what the instruction set leaves there, the last
  register apart;
* the memory is as it was;
* there have been as many commits as there were groups of 52 cycles;

provided that the execution stays in the list, takes no branch beyond two
kilobytes and makes no indirect jump to an odd sum.
-/
theorem instructions_executed
    (codes : List Code)
    (loaded :
      powerUp.datapath.mem.memory = Memory.holding (codes.map Code.encode))
    (fits : codes.length ≤ 2 ^ 28)
    (plain :
      ∀ code ∈ codes,
        code.accesses = false ∧ code.multiplies = false ∧
          31 ∉ code.named)
    (meets :
      (Program.ofList codes).Meets wordAccess
        (Rv32.State.start powerUp.ownMemory) WithinReach)
    (cycle : Nat) :
    ∃ state,
      Executes wordAccess (Program.ofList codes)
          (Rv32.State.start powerUp.ownMemory)
          (powerUp.retirements cycle) state ∧
        (∀ register,
          register ≠ 31 →
          (powerUp.run cycle).datapath.regfile register =
            state.registers register) ∧
        (powerUp.run cycle).datapath.mem.memory = state.memory ∧
        cycle / 52 ≤ (powerUp.retirements cycle).length := by
  have assembled :
      Assembled (Program.ofList codes) powerUp.ownWord := by
    rw [ownWord, loaded]
    exact assembled_ofList fits
  exact
    executed_of_plainWords (plainWord_of_codes loaded plain) assembled meets
      cycle

/-- The loop that counts up, as instructions. -/
def countUpCodes : List Code :=
  [.arithmetic (.opImm .addi 1 1 1), .arithmetic (.op .add 2 2 1),
    .jal 0 (BitVec.ofInt 20 (-4))]

/-- The core executes the loop. -/
theorem instructions_executed_countUp :
    ∃ state,
      Executes wordAccess (Program.ofList countUpCodes)
          (Rv32.State.start
            (withProgram (countUpCodes.map Code.encode)).ownMemory)
          ((withProgram (countUpCodes.map Code.encode)).retirements 520)
          state ∧
        (∀ register,
          register ≠ 31 →
          ((withProgram (countUpCodes.map Code.encode)).run
                520).datapath.regfile register =
            state.registers register) ∧
        ((withProgram (countUpCodes.map Code.encode)).run
              520).datapath.mem.memory =
          state.memory ∧
        520 / 52 ≤
          ((withProgram (countUpCodes.map Code.encode)).retirements
            520).length := by
  have closed : (Program.ofList countUpCodes).Closed :=
    Program.closed_ofList (by decide +kernel)
  exact
    instructions_executed countUpCodes rfl (by decide) (by decide)
      (meets_withinReach closed (by decide) (by decide) _) 520

section Accesses

variable (accesses : AccessProgram powerUp.ownWord)
  (fetches : powerUp.FetchesProgram powerUp.ownMemory horizon)
  (stays : powerUp.StaysUndisturbed horizon)
  (assembled : Assembled program powerUp.ownWord)
  (meets :
    program.Meets wordAccess (Rv32.State.start powerUp.ownMemory)
      WithinReach)
include accesses fetches stays assembled meets

/-- An assembled program is executed by the core, loads and stores
included. -/
theorem executes_accesses :
    Executes wordAccess program (Rv32.State.start powerUp.ownMemory)
      (powerUp.retirements horizon) (powerUp.accessed horizon).state := by
  apply executes_of_machine powerUp.accessed rfl ?_ (fun _ => rfl) assembled
    meets
  intro cycle before valid
  obtain ⟨follows, _⟩ := run_accesses accesses fetches stays before.le
  exact
    Datapath.retired_eq (follows.commit_eq valid)
      (follows.store_of_commit valid).symm

/--
An assembled program is executed by the core, loads and stores included, from
every power-up state, provided that

* no word of the memory names the last register, words of data included,
* the execution of the instruction set stays in the program, takes no branch
  beyond two kilobytes and makes no indirect jump to an odd sum,
* the run does not change the program while it is fetched, and nothing
  disturbs its loads and stores.

Then:

* The commits are an execution of the program by the instruction set.
* The register file holds what the instruction set leaves there, the last
  register apart.
* Whenever everything is written back, so does the memory.
-/
theorem program_executed :
    ∃ state,
      Executes wordAccess program (Rv32.State.start powerUp.ownMemory)
          (powerUp.retirements horizon) state ∧
        (∀ register,
          register ≠ 31 →
          (powerUp.run horizon).datapath.regfile register =
            state.registers register) ∧
        ((powerUp.run horizon).datapath.WrittenBack →
          (powerUp.run horizon).datapath.mem.memory = state.memory) := by
  obtain ⟨follows, _⟩ :=
    run_accesses accesses fetches stays (Nat.le_refl horizon)
  exact
    ⟨_, executes_accesses accesses fetches stays assembled meets,
      fun _ notLast => follows.registers _ notLast,
      memory_of_writtenBack accesses fetches stays⟩

end Accesses

/-- The loop that doubles a word, as instructions. -/
def doublingCodes : List Code :=
  [.arithmetic (.opImm .addi 1 0 3), .sw 1 0 512, .lw 2 0 512,
    .arithmetic (.op .add 1 2 2), .jal 0 (BitVec.ofInt 20 (-6))]

/-- The core executes the loop. -/
theorem program_executed_doubling :
    ∃ state,
      Executes wordAccess (Program.ofList doublingCodes)
          (Rv32.State.start (withProgram doubling).ownMemory)
          ((withProgram doubling).retirements 60) state ∧
        (∀ register,
          register ≠ 31 →
          ((withProgram doubling).run 60).datapath.regfile register =
            state.registers register) ∧
        (((withProgram doubling).run 60).datapath.WrittenBack →
          ((withProgram doubling).run 60).datapath.mem.memory =
            state.memory) := by
  obtain ⟨accesses, fetches, stays⟩ := doubling_undisturbed
  have words : doubling = doublingCodes.map Code.encode := by
    decide +kernel
  have closed : (Program.ofList doublingCodes).Closed :=
    Program.closed_ofList (by decide +kernel)
  have assembled :
      Assembled (Program.ofList doublingCodes)
        (programWord (Memory.holding doubling)) := by
    rw [words]
    exact assembled_ofList (by decide)
  exact
    program_executed accesses fetches stays assembled
      (meets_withinReach closed (by decide) (by decide) _)

end Core

end Tartaruga
