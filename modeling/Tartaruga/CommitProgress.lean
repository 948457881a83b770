import Tartaruga.FetchProgress
import Tartaruga.PipelineProgress

namespace Tartaruga

/-!
# Programs on registers make progress

The memory stage never stalls on them.  An empty reorder buffer waits for the
fetch path only, at most twice.
-/

namespace Datapath

variable {core : Datapath} {answer : FetchAnswer} {instr : InstrData}
  {word : Bus32 → Bus32}

/-- Over an empty reorder buffer nothing is in the execute pipe. -/
theorem not_carries_exePipe_of_empty
    (phase : core.Waiting ∨ core.Drains)
    (empty : ∀ slot, (core.rob.robQ slot).valid = false)
    (stage : Fin 4) :
    ¬ core.Carries (.exePipe stage) instr := by
  intro carries
  rcases phase with waiting | drains
  · have occupied := (waits_iff.mp (waiting _ instr carries)).1
    rw [empty] at occupied
    cases occupied
  · rcases drains.leaving _ instr carries with isLast | ⟨isMemory, _⟩
    · cases isLast
    · cases isMemory

/-- Over an empty reorder buffer only the fetch path holds the pipeline. -/
theorem stall_of_registers
    (program : RegisterProgram word)
    (pipelined : core.Pipelined word)
    (empty : ∀ slot, (core.rob.robQ slot).valid = false)
    (answered : answer.valid = true) :
    core.stall answer = false := by
  have free :
      ∀ stage : Fin 4,
        (core.exe.exePipeQ stage.castSucc).valid = false := by
    intro stage
    by_contra valid
    exact
      not_carries_exePipe_of_empty pipelined.phase empty stage
        ⟨Bool.not_eq_false _ ▸ valid, rfl⟩
  rw [stall_of_empty pipelined.wellFormed empty free
    (pipelined.ofProgram.stallFromMem program), answered]
  rfl

section Run

variable {powerUp : Datapath} {answers : Nat → FetchAnswer} {bound : Nat}

/-- From every cycle on, fetch answers or the reorder buffer commits within so
many cycles. -/
def Answers
    (powerUp : Datapath)
    (answers : Nat → FetchAnswer)
    (bound : Nat) :
    Prop :=
  ∀ start,
    Clocked.Within
      (fun cycle =>
        (answers cycle).valid = true ∨ powerUp.CommitsAt answers cycle)
      start bound

variable (program : RegisterProgram word)
  (serves : ∀ horizon, powerUp.Serves answers word horizon)
  (noMul : ∀ cycle, (powerUp.run answers cycle).FlushesNoMul)
include program serves noMul

/-- In every cycle the pipeline is in order. -/
theorem run_pipelined (cycle : Nat) :
    (powerUp.run answers cycle).Pipelined word :=
  (run_follows program (serves cycle) (fun earlier _ => noMul earlier) cycle
    (Nat.le_refl cycle)).pipelined

/-- In every cycle every waiting entry has a carrier. -/
theorem run_carried (cycle : Nat) : (powerUp.run answers cycle).Carried := by
  induction cycle with
  | zero =>
      intro slot waits
      cases waits
  | succ cycle inductionHypothesis =>
      have pipelined := run_pipelined program serves noMul cycle
      have kept : (powerUp.run answers cycle).dropsLast = false := by
        simp [dropsLast, pipelined.ofProgram.stallFromMem program]
      exact
        carried_clock pipelined.ofProgram.shaped inductionHypothesis kept

/-- Nothing is lost. -/
theorem run_orderly (cycle : Nat) :
    (powerUp.run answers cycle).Orderly where
  window := (run_pipelined program serves noMul cycle).wellFormed
  shaped := (run_pipelined program serves noMul cycle).ofProgram.shaped
  notLost := not_lost_of_carried (run_carried program serves noMul cycle)

/-- The memory stage always moves. -/
theorem run_movesWithin :
    powerUp.MovesWithin answers (powerUp.CommitsAt answers) 0 :=
  fun start =>
    .now
      (.inl
        ((run_pipelined program serves noMul start).ofProgram.stallFromMem
          program))

/-- An occupied reorder buffer commits within seven cycles. -/
theorem commits_of_registers
    {start : Nat}
    (occupied :
      ((powerUp.run answers start).rob.robQ
        (powerUp.run answers start).rob.headPtrQ).valid = true) :
    Clocked.Within (powerUp.CommitsAt answers) start 7 :=
  commits_of_occupied (fun _ => id)
    (fun cycle _ => run_orderly program serves noMul cycle)
    (run_movesWithin program serves noMul) occupied

/-- An instruction in decode that is answered leads to a commit within eight
cycles. -/
theorem commits_of_answered
    {start : Nat}
    (answered : (answers start).valid = true)
    (decoded : (powerUp.run answers start).validDecode = true) :
    Clocked.Within (powerUp.CommitsAt answers) start 8 := by
  have pipelined := run_pipelined program serves noMul start
  cases head :
      ((powerUp.run answers start).rob.robQ
        (powerUp.run answers start).rob.headPtrQ).valid with
  | true =>
      exact
        (commits_of_registers program serves noMul head).of_le (by decide)
  | false =>
      have empty := empty_of_head pipelined.wellFormed head
      have moves := stall_of_registers program pipelined empty answered
      have allocated :=
        allocates_iff.mpr ⟨moves, decoded, (silent_of_empty empty).2⟩
      exact
        commits_of_allocates (fun _ => id)
          (fun cycle _ => run_orderly program serves noMul cycle)
          (run_movesWithin program serves noMul) allocated

variable (fetches : powerUp.Answers answers bound)
include fetches

/-- An instruction in decode leads to a commit. -/
theorem commits_of_validDecode
    {start : Nat}
    (decoded : (powerUp.run answers start).validDecode = true) :
    Clocked.Within (powerUp.CommitsAt answers) start (bound + 8) := by
  have kept :=
    (fetches start).keep
      (fun cycle => (powerUp.run answers cycle).validDecode = true) decoded
      (by
        intro cycle decoded waits
        rw [not_or, Bool.not_eq_true] at waits
        exact
          (validDecode_clock_of_waits waits.1
            (Bool.not_eq_true _ ▸ waits.2)).trans decoded)
  apply kept.bind
  rintro cycle _ ⟨answered | commits, decoded⟩
  · exact commits_of_answered program serves noMul answered decoded
  · exact .now commits

/--
On a program that neither loads nor stores nor names the last register, and as
long as no multiplication is flushed, the core commits again and again: the
next commit is never further away than twice the time that fetch needs to
answer and nine cycles more.
-/
theorem commits_within (start : Nat) :
    Clocked.Within (powerUp.CommitsAt answers) start
      (bound + (bound + 9)) := by
  apply (fetches start).bind
  rintro cycle _ (answered | commits)
  · have pipelined := run_pipelined program serves noMul cycle
    cases head :
        ((powerUp.run answers cycle).rob.robQ
          (powerUp.run answers cycle).rob.headPtrQ).valid with
    | true =>
        exact
          (commits_of_registers program serves noMul head).of_le (by omega)
    | false =>
        have empty := empty_of_head pipelined.wellFormed head
        have moves := stall_of_registers program pipelined empty answered
        have decodedNext :
            (powerUp.run answers (cycle + 1)).validDecode = true :=
          (validDecode_clock_of_moves moves
            (silent_of_empty empty).1).trans answered
        exact
          (commits_of_validDecode program serves noMul fetches
            decodedNext).later
  · exact .now commits

end Run

end Datapath

end Tartaruga
