import Tartaruga.RegisterExecution
import Tartaruga.Simulator

namespace Tartaruga

/-!
# The watchdog

The main loop gives up when no instruction has committed for more than a
hundred cycles.  A program on registers is never silent for half as long, and
as it cannot store to the finish address either, its simulation does not end.
-/

namespace Simulator

variable {powerUp : Core} {cycle rounds : Nat}

/-- If every cycle is followed by a commit within a bound, the silence does not
exceed it. -/
theorem silence_le_of_within
    {bound : Nat}
    (within :
      ∀ start,
        Clocked.Within
          (fun cycle => (powerUp.run cycle).datapath.commit.valid = true)
          start bound) :
    silence powerUp cycle ≤ bound := by
  by_contra long
  obtain ⟨covered, silent⟩ :=
    Looping.le_silence_iff.mp (Nat.lt_of_not_le long)
  obtain ⟨delay, inTime, commits⟩ := within (cycle - (bound + 1))
  have quiet :
      commitsIn powerUp (cycle - (bound + 1) + delay) = false :=
    silent _ (by omega) (by omega)
  rw [commitsIn, commits] at quiet
  cases quiet

section Registers

variable (registers : RegisterProgram powerUp.ownWord)
include registers

/-- A program on registers does not display anything. -/
theorem displays_of_registers (cycle : Nat) :
    displays (powerUp.run cycle) = none := by
  have nothing :
      (powerUp.run cycle).datapath.mem.storeBuffer.rspValid = false :=
    (Core.run_untouched registers cycle).memory.sbRspValid
  simp [displays, MemStage.display, nothing]

variable
  (noMul : ∀ cycle, (powerUp.run cycle).datapath.FlushesNoMul)
include noMul

/-- Its simulation does not halt. -/
theorem not_halted_of_registers (rounds : Nat) :
    ¬ Halted powerUp rounds := by
  rintro (⟨cycle, _, finishes⟩ | long)
  · rw [finishesIn, displays_of_registers registers cycle] at finishes
    cases finishes
  · have short : silence powerUp rounds ≤ 51 :=
      silence_le_of_within (Core.commits_within registers noMul)
    omega

/--
The main loop never ends on a program that neither loads nor stores nor names
the last register, as long as no multiplication is in the reorder buffer when a
taken branch commits: nothing is displayed, and the watchdog counts 51 cycles at
most.
-/
theorem mainLoop_of_registers (fuel : Nat) :
    mainLoop fuel powerUp = none ∧
      ∀ rounds,
        (after powerUp rounds).displayed = [] ∧
          (after powerUp rounds).cyclesWithoutCommit ≤ 51 := by
  constructor
  · cases ended : mainLoop fuel powerUp with
    | none =>
        rfl
    | some last =>
        obtain ⟨rounds, _, ends, _⟩ :=
          Looping.whileLoop_eq_some_iff.mp ended
        exact
          (not_halted_of_registers registers noMul rounds
            (ends_iff.mp ends).1).elim
  · intro rounds
    have short : silence powerUp rounds ≤ 51 :=
      silence_le_of_within (Core.commits_within registers noMul)
    have counted := toNat_silence (Nat.le_trans short (by decide))
    rw [after_eq_ofRun]
    constructor
    · apply List.filterMap_eq_nil_iff.mpr
      intro cycle _
      exact displays_of_registers registers cycle
    · rw [UInt32.le_iff_toNat_le]
      exact Nat.le_trans (Nat.le_of_eq counted) short

end Registers

/-- The loop that counts up is simulated for ever. -/
theorem mainLoop_of_registers_countUp :
    mainLoop 1000000 (.withProgram Core.countUp) = none ∧
      ∀ rounds,
        (after (.withProgram Core.countUp) rounds).displayed = [] ∧
          (after (.withProgram Core.countUp)
              rounds).cyclesWithoutCommit ≤
            51 :=
  mainLoop_of_registers Core.countUp_registers.1 Core.countUp_registers.2
    1000000

end Simulator

end Tartaruga
