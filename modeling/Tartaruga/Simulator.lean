import Tartaruga.Looping
import Tartaruga.ProgramOutput
import Tartaruga.RegisterFile

namespace Tartaruga

/-!
# The main loop of the simulator

`main` clocks the core until a store to the finish address has reached the head
of the store buffer, or until no instruction has committed for too long.  It
counts cycles and commits in 32 bits.
-/

/-- An entry of the commit file, which `print_commit` writes as two lines. -/
structure CommitEntry where
  pc : Bus32
  instr : Bus32
  result : Bus32
  deriving Repr, DecidableEq

/-- The line is followed by `$finish`. -/
def MemStage.Display.finishes : MemStage.Display → Bool
  | .output _ => false
  | .executionSucceeded | .executionFailed | .error => true

/-- The simulation between two rounds of the main loop: the design, the
variables of `main`, what the memory stage has displayed and what the commit
file holds.  The messages of the memory model are left out. -/
structure Simulator where
  top : Core
  gotFinish : Bool
  mainTime : UInt64
  cyclesWithoutCommit : UInt32
  totalCycles : UInt32
  commitedInstructions : UInt32
  displayed : List MemStage.Display
  commitFile : List CommitEntry

namespace Simulator

/-- What a clock edge displays. -/
def displays (core : Core) : Option MemStage.Display :=
  MemStage.display core.datapath.mem.storeBuffer

/-- The entry that a clock edge adds to the commit file. -/
def commitEntry (core : Core) : Option CommitEntry :=
  if core.datapath.commit.valid then
    some
      { pc := core.datapath.commit.pc
        instr := core.datapath.commit.instr
        result := core.datapath.commit.result }
  else
    none

/-- The simulation after the eleven half-cycles of reset. -/
def start (powerUp : Core) : Simulator where
  top := powerUp.reset
  gotFinish := false
  mainTime := 11
  cyclesWithoutCommit := 0
  totalCycles := 0
  commitedInstructions := 0
  displayed := []
  commitFile := []

/-- The condition of the main loop. -/
def continues (sim : Simulator) : Bool :=
  !sim.gotFinish && decide (sim.cyclesWithoutCommit ≤ 100)

/-- One round: `commit_valid_o` is sampled while the clock is low, and then the
clock rises. -/
def round (sim : Simulator) : Simulator :=
  let commitValid := sim.top.datapath.commit.valid
  { top := sim.top.clock
    gotFinish :=
      sim.gotFinish || (displays sim.top).any MemStage.Display.finishes
    mainTime := sim.mainTime + 2
    cyclesWithoutCommit :=
      if commitValid then 0 else sim.cyclesWithoutCommit + 1
    totalCycles := sim.totalCycles + 1
    commitedInstructions :=
      if commitValid then sim.commitedInstructions + 1
      else sim.commitedInstructions
    displayed := sim.displayed ++ (displays sim.top).toList
    commitFile := sim.commitFile ++ (commitEntry sim.top).toList }

/-- The main loop. -/
def mainLoop (fuel : Nat) (powerUp : Core) : Option Simulator :=
  Looping.whileLoop continues round fuel (start powerUp)

/-- What is reported behind the main loop, the two quotients apart. -/
structure Report where
  finishedAtCycle : UInt64
  totalCycles : UInt32
  committedInstructions : UInt32
  killed : Bool
  deriving DecidableEq

/-- The report. -/
def report (sim : Simulator) : Report where
  finishedAtCycle := sim.mainTime / 2
  totalCycles := sim.totalCycles
  committedInstructions := sim.commitedInstructions
  killed := decide (100 ≤ sim.cyclesWithoutCommit)

/-- The simulation after some rounds. -/
def after (powerUp : Core) (rounds : Nat) : Simulator :=
  round^[rounds] (start powerUp)

/-- One more round is made at the end. -/
theorem after_succ (powerUp : Core) (rounds : Nat) :
    after powerUp (rounds + 1) = (after powerUp rounds).round :=
  Function.iterate_succ_apply' _ _ _

/-- An instruction commits in the cycle. -/
def commitsIn (powerUp : Core) (cycle : Nat) : Bool :=
  (powerUp.run cycle).datapath.commit.valid

/-- A store to the finish address is at the head of the store buffer in the
cycle. -/
def finishesIn (powerUp : Core) (cycle : Nat) : Bool :=
  (displays (powerUp.run cycle)).any MemStage.Display.finishes

/-- For how many cycles no instruction has committed. -/
def silence (powerUp : Core) (cycle : Nat) : Nat :=
  Looping.silence (commitsIn powerUp) cycle

/-- What a run of the core makes of the simulation. -/
def ofRun (powerUp : Core) (rounds : Nat) : Simulator where
  top := powerUp.run rounds
  gotFinish := (List.range rounds).any (finishesIn powerUp)
  mainTime := UInt64.ofNat (11 + 2 * rounds)
  cyclesWithoutCommit := UInt32.ofNat (silence powerUp rounds)
  totalCycles := UInt32.ofNat rounds
  commitedInstructions := UInt32.ofNat (powerUp.commits rounds).length
  displayed :=
    Clocked.collect (fun cycle => displays (powerUp.run cycle)) rounds
  commitFile :=
    Clocked.collect (fun cycle => commitEntry (powerUp.run cycle)) rounds

variable {powerUp : Core} {rounds : Nat}

/-- One more commit, or one more cycle of silence. -/
theorem commits_succ (powerUp : Core) (cycle : Nat) :
    (powerUp.commits (cycle + 1)).length =
      if commitsIn powerUp cycle then (powerUp.commits cycle).length + 1
      else (powerUp.commits cycle).length := by
  rw [Core.commits, Clocked.collect_succ, commitsIn]
  cases (powerUp.run cycle).datapath.commit.valid with
  | true =>
      exact List.length_append
  | false =>
      exact congrArg List.length (List.append_nil _)

/-- A round follows the run. -/
theorem round_ofRun (powerUp : Core) (rounds : Nat) :
    (ofRun powerUp rounds).round = ofRun powerUp (rounds + 1) := by
  have time :
      UInt64.ofNat (11 + 2 * rounds) + 2 =
        UInt64.ofNat (11 + 2 * (rounds + 1)) := by
    rw [Nat.mul_succ, ← Nat.add_assoc, UInt64.ofNat_add _ 2]
    rfl
  have cycles : UInt32.ofNat rounds + 1 = UInt32.ofNat (rounds + 1) := by
    rw [UInt32.ofNat_add]
    rfl
  have silent :
      (if commitsIn powerUp rounds then 0
        else UInt32.ofNat (silence powerUp rounds) + 1) =
        UInt32.ofNat (silence powerUp (rounds + 1)) := by
    rw [silence, silence, Looping.silence]
    split
    · rfl
    · rw [UInt32.ofNat_add]
      rfl
  have commits :
      (if commitsIn powerUp rounds then
          UInt32.ofNat (powerUp.commits rounds).length + 1
        else UInt32.ofNat (powerUp.commits rounds).length) =
        UInt32.ofNat (powerUp.commits (rounds + 1)).length := by
    rw [commits_succ]
    split
    · rw [UInt32.ofNat_add]
      rfl
    · rfl
  have finishes :
      ((List.range rounds).any (finishesIn powerUp) ||
          finishesIn powerUp rounds) =
        (List.range (rounds + 1)).any (finishesIn powerUp) := by
    rw [List.range_succ, List.any_append, List.any_cons, List.any_nil,
      Bool.or_false]
  rw [ofRun, ofRun, ← time, ← cycles, ← silent, ← commits, ← finishes,
    Clocked.collect_succ, Clocked.collect_succ]
  rfl

/-- The simulation follows the run. -/
theorem after_eq_ofRun (powerUp : Core) (rounds : Nat) :
    after powerUp rounds = ofRun powerUp rounds := by
  induction rounds with
  | zero =>
      rfl
  | succ rounds inductionHypothesis =>
      rw [after_succ, inductionHypothesis, round_ofRun]

/-- A finishing store has been displayed, or no instruction has committed for
more than a hundred cycles. -/
def Halted (powerUp : Core) (rounds : Nat) : Prop :=
  (∃ cycle, cycle < rounds ∧ finishesIn powerUp cycle = true) ∨
    100 < silence powerUp rounds

/-- Before that the silence is too short to wrap around. -/
theorem silence_le
    (running : ∀ earlier, earlier < rounds → ¬ Halted powerUp earlier) :
    silence powerUp rounds ≤ 101 := by
  cases rounds with
  | zero =>
      exact Nat.zero_le _
  | succ rounds =>
      have short : silence powerUp rounds ≤ 100 :=
        Nat.le_of_not_lt fun long =>
          running rounds (Nat.lt_succ_self rounds) (.inr long)
      rw [silence, Looping.silence]
      split
      · exact Nat.zero_le _
      · exact Nat.succ_le_succ short

/-- A short silence is counted exactly. -/
theorem toNat_silence
    (short : silence powerUp rounds ≤ 101) :
    (UInt32.ofNat (silence powerUp rounds)).toNat =
      silence powerUp rounds := by
  rw [UInt32.toNat_ofNat', Nat.mod_eq_of_lt]
  omega

/-- The condition of the loop. -/
theorem continues_after
    (short : silence powerUp rounds ≤ 101) :
    (after powerUp rounds).continues = false ↔ Halted powerUp rounds := by
  have counted :
      (UInt32.ofNat (silence powerUp rounds) ≤ 100) ↔
        silence powerUp rounds ≤ 100 := by
    rw [UInt32.le_iff_toNat_le, toNat_silence short]
    rfl
  have finished :
      (List.range rounds).any (finishesIn powerUp) = true ↔
        ∃ cycle, cycle < rounds ∧ finishesIn powerUp cycle = true := by
    simp only [List.any_eq_true, List.mem_range]
  rw [after_eq_ofRun, Halted, ← finished, continues]
  simp only [ofRun, counted, Bool.and_eq_false_iff, Bool.not_eq_false',
    decide_eq_false_iff_not, Nat.not_le]

/-- The loop ends as soon as the simulation has halted. -/
theorem ends_iff :
    Looping.Ends continues round (start powerUp) rounds ↔
      Halted powerUp rounds ∧
        ∀ earlier, earlier < rounds → ¬ Halted powerUp earlier := by
  constructor
  · intro ends
    have running :
        ∀ earlier, earlier < rounds → ¬ Halted powerUp earlier := by
      intro earlier
      induction earlier using Nat.strong_induction_on with
      | _ earlier inductionHypothesis =>
          intro before halted
          have short : silence powerUp earlier ≤ 101 :=
            silence_le fun first isEarlier =>
              inductionHypothesis first isEarlier
                (Nat.lt_trans isEarlier before)
          have stops := (continues_after short).mpr halted
          have goesOn : (after powerUp earlier).continues = true :=
            ends.goesOn earlier before
          rw [stops] at goesOn
          cases goesOn
    exact ⟨(continues_after (silence_le running)).mp ends.stops, running⟩
  · rintro ⟨halted, running⟩
    refine
      { goesOn := ?_
        stops := (continues_after (silence_le running)).mpr halted }
    intro earlier before
    have short : silence powerUp earlier ≤ 101 :=
      silence_le fun first isEarlier =>
        running first (Nat.lt_trans isEarlier before)
    by_contra stops
    exact
      running earlier before
        ((continues_after short).mp (Bool.not_eq_true _ ▸ stops))

/--
From every power-up state the main loop ends in the first round in which a
finishing store has been displayed or no instruction has committed for more
than a hundred cycles.  The counters are then the rounds and the commits modulo
2^32, and the commit file has an entry for every commit.  The simulation is
reported as killed exactly if the last hundred cycles were silent.
-/
theorem mainLoop_eq_some_iff
    (powerUp : Core)
    (fuel : Nat)
    (last : Simulator) :
    mainLoop fuel powerUp = some last ↔
      ∃ rounds,
        rounds ≤ fuel ∧ Halted powerUp rounds ∧
          (∀ earlier, earlier < rounds → ¬ Halted powerUp earlier) ∧
          last = ofRun powerUp rounds ∧
          (last.report.killed = true ↔ 100 ≤ silence powerUp rounds) := by
  have killed :
      ∀ {rounds},
        (∀ earlier, earlier < rounds → ¬ Halted powerUp earlier) →
        ((ofRun powerUp rounds).report.killed = true ↔
          100 ≤ silence powerUp rounds) := by
    intro rounds running
    have counted := toNat_silence (silence_le running)
    have long :
        100 ≤ UInt32.ofNat (silence powerUp rounds) ↔
          100 ≤ silence powerUp rounds := by
      rw [UInt32.le_iff_toNat_le, counted]
      rfl
    exact decide_eq_true_iff.trans long
  rw [mainLoop, Looping.whileLoop_eq_some_iff]
  constructor
  · rintro ⟨rounds, short, ends, rfl⟩
    obtain ⟨halted, running⟩ := ends_iff.mp ends
    have reached : round^[rounds] (start powerUp) = ofRun powerUp rounds :=
      after_eq_ofRun powerUp rounds
    rw [reached]
    exact ⟨rounds, short, halted, running, rfl, killed running⟩
  · rintro ⟨rounds, short, halted, running, rfl, _⟩
    exact
      ⟨rounds, short, ends_iff.mpr ⟨halted, running⟩,
        after_eq_ofRun powerUp rounds⟩

end Simulator

end Tartaruga
