import Tartaruga.CoreEvaluation

namespace Tartaruga

/-!
# The register file and the commits

Architecturally, the registers are what the commits so far wrote, over zero.
The register file of the core agrees with that except for its last register,
which neither of its loops reaches.
-/

namespace Regfile

/-- What a commit does to the architectural registers. -/
def afterCommit (registers : Regfile) (commit : RobCommit) : Regfile :=
  if commit.writeEnable = true ∧ commit.rdAddr ≠ 0 then
    Function.update registers commit.rdAddr commit.result
  else
    registers

/-- The architectural registers after a sequence of commits. -/
def architectural (commits : List RobCommit) : Regfile :=
  commits.foldl afterCommit fun _ => 0

/-- No commit touches x0. -/
theorem afterCommit_zero (registers : Regfile) (commit : RobCommit) :
    registers.afterCommit commit 0 = registers 0 := by
  simp only [afterCommit]
  split
  · rename_i writes
    exact Function.update_of_ne (Ne.symm writes.2) _ _
  · rfl

/-- x0 is always zero. -/
theorem architectural_zero (commits : List RobCommit) :
    architectural commits 0 = 0 := by
  induction commits using List.reverseRecOn with
  | nil =>
      rfl
  | append_singleton commits commit inductionHypothesis =>
      simp only [architectural, List.foldl_append, List.foldl_cons,
        List.foldl_nil, afterCommit_zero]
      exact inductionHypothesis

/-- Both loops of the register file reach every register but the last. -/
theorem toNat_lt_of_ne_last {register : RegAddr} (notLast : register ≠ 31) :
    register.toNat < regCount - 1 := by
  have bound := register.isLt
  have apart : register.toNat ≠ 31 := fun same =>
    notLast (BitVec.eq_of_toNat_eq same)
  change register.toNat < 31
  omega

/-- Reset clears the registers that its loop reaches. -/
theorem reset_of_ne_last
    (registers : Regfile)
    {register : RegAddr}
    (notLast : register ≠ 31) :
    registers.reset register = 0 :=
  if_pos (toNat_lt_of_ne_last notLast)

/-- A clock edge does to the registers that its loop reaches what the commit
says. -/
theorem clock_of_ne_last
    {registers : Regfile}
    {register : RegAddr}
    (commit : RobCommit)
    (notLast : register ≠ 31) :
    registers.clock commit.rdAddr commit.result commit.writeEnable register =
      registers.afterCommit commit register := by
  have inside := toNat_lt_of_ne_last notLast
  by_cases isZero : register = 0
  · rw [isZero, afterCommit_zero]
    simp [clock]
  · have positive : 1 ≤ register.toNat := by
      have apart : register.toNat ≠ 0 := fun same =>
        isZero (BitVec.eq_of_toNat_eq same)
      omega
    simp only [clock, positive, inside, true_and, afterCommit]
    by_cases writes : commit.writeEnable = true ∧ commit.rdAddr ≠ 0
    · rw [if_pos writes, Function.update_apply]
      simp only [writes.1, and_true]
    · rw [if_neg writes, if_neg]
      rintro ⟨rfl, enabled⟩
      exact writes ⟨enabled, isZero⟩

/-- No clock edge writes the last register. -/
theorem clock_last (registers : Regfile) (commit : RobCommit) :
    registers.clock commit.rdAddr commit.result commit.writeEnable 31 =
      registers 31 := by
  simp [clock, regCount]

end Regfile

namespace Core

variable (powerUp : Core)

/-- The commits of the first cycles, oldest first. -/
def commits : Nat → List RobCommit :=
  Clocked.collect fun cycle =>
    if (powerUp.run cycle).datapath.commit.valid then
      some (powerUp.run cycle).datapath.commit
    else
      none

/-- A cycle without a commit shows no write. -/
theorem writeEnable_of_not_valid
    {core : Datapath}
    (silent : core.commit.valid = false) :
    core.commit.writeEnable = false := by
  simp only [Datapath.commit, Rob.commit] at silent ⊢
  split
  · rename_i commits
    simp [commits] at silent
  · rfl

/-- Every cycle does to the architectural registers what its commit outputs
say. -/
theorem architectural_succ (cycle : Nat) :
    Regfile.architectural (powerUp.commits (cycle + 1)) =
      (Regfile.architectural (powerUp.commits cycle)).afterCommit
        (powerUp.run cycle).datapath.commit := by
  cases valid : (powerUp.run cycle).datapath.commit.valid with
  | true =>
      have appended :
          powerUp.commits (cycle + 1) =
            powerUp.commits cycle ++ [(powerUp.run cycle).datapath.commit] :=
        Clocked.collect_succ_some (by simp [valid])
      rw [appended]
      simp only [Regfile.architectural, List.foldl_append, List.foldl_cons,
        List.foldl_nil]
  | false =>
      have same : powerUp.commits (cycle + 1) = powerUp.commits cycle :=
        Clocked.collect_succ_none (by simp [valid])
      rw [same, Regfile.afterCommit, writeEnable_of_not_valid valid]
      simp

/-- The last register keeps what it powered up with. -/
theorem run_regfile_last (cycle : Nat) :
    (powerUp.run cycle).datapath.regfile 31 =
      powerUp.datapath.regfile 31 := by
  induction cycle with
  | zero =>
      rfl
  | succ cycle inductionHypothesis =>
      exact (Regfile.clock_last (powerUp.run cycle).datapath.regfile
        (powerUp.run cycle).datapath.commit).trans inductionHypothesis

/-- Every other register holds what the commits wrote. -/
theorem run_regfile
    {register : RegAddr}
    (notLast : register ≠ 31)
    (cycle : Nat) :
    (powerUp.run cycle).datapath.regfile register =
      Regfile.architectural (powerUp.commits cycle) register := by
  induction cycle with
  | zero =>
      exact Regfile.reset_of_ne_last _ notLast
  | succ cycle inductionHypothesis =>
      rw [architectural_succ]
      refine (Regfile.clock_of_ne_last _ notLast).trans ?_
      by_cases writes :
          (powerUp.run cycle).datapath.commit.writeEnable = true ∧
            (powerUp.run cycle).datapath.commit.rdAddr ≠ 0
      · simp only [Regfile.afterCommit, if_pos writes, Function.update_apply]
        rw [inductionHypothesis]
      · simp only [Regfile.afterCommit, if_neg writes]
        exact inductionHypothesis

/--
After every cycle of every run, x0 reads zero, and a register reads what the
commits so far wrote to it, or zero, if and only if it is not x31 or that is
the value that x31 powered up with.
-/
theorem regfile_eq_commits_iff (cycle : Nat) :
    (powerUp.run cycle).datapath.regfile 0 = 0 ∧
      ∀ register,
        (powerUp.run cycle).datapath.regfile register =
            Regfile.architectural (powerUp.commits cycle) register ↔
          (register = 31 →
            powerUp.datapath.regfile 31 =
              Regfile.architectural (powerUp.commits cycle) 31) := by
  constructor
  · rw [run_regfile powerUp (by decide) cycle, Regfile.architectural_zero]
  · intro register
    by_cases isLast : register = 31
    · subst isLast
      rw [run_regfile_last]
      simp
    · rw [run_regfile powerUp isLast cycle]
      exact iff_of_true rfl fun last => (isLast last).elim

/-- One instruction that writes x31. -/
def writeLast : List Bus32 :=
  [ 0x00100f93 ] -- addi x31, x0, 1

/-- It commits the value one for x31 in cycle 16, and x31 reads zero after
that. -/
theorem writeLast_not_stored :
    (withProgram writeLast).datapath.regfile 31 = 0 ∧
      Regfile.architectural ((withProgram writeLast).commits 17) 31 = 1 ∧
      ((withProgram writeLast).run 17).datapath.regfile 31 = 0 := by
  have observed :
      Strict.observe Core.clock
        (fun core =>
          (core.datapath.commit.writeEnable, core.datapath.commit.rdAddr,
            core.datapath.commit.result)) 16
        (withProgram writeLast).reset = (true, 31, 1) := by
    decide +kernel
  rw [← observe_run (withProgram writeLast), Prod.mk.injEq, Prod.mk.injEq]
    at observed
  have powersUp : (withProgram writeLast).datapath.regfile 31 = 0 := rfl
  refine ⟨powersUp, ?_, (run_regfile_last _ 17).trans powersUp⟩
  rw [architectural_succ, Regfile.afterCommit, observed.1, observed.2.1,
    observed.2.2, if_pos ⟨rfl, by decide⟩, Function.update_self]

end Core

end Tartaruga
