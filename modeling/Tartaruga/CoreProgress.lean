import Tartaruga.MemoryProgress
import Tartaruga.SequentialRefinement
import Tartaruga.StraightPrograms

namespace Tartaruga

/-!
# The core makes progress, or is stuck

As long as no index in use is handed out, the core commits again and again, or
the instruction at the head of the reorder buffer has been lost.  What is lost
is never found again, and then nothing commits any more.
-/

namespace Datapath

variable {core : Datapath}

namespace Lost

variable (lost : core.Lost)
include lost

/-- A head that is lost does not commit. -/
theorem commitValid_eq : core.rob.commitValid = false := by
  by_contra commits
  exact
    not_retires_of_waits lost.waits ⟨Bool.not_eq_false _ ▸ commits, rfl⟩

/-- Nothing completes a head that is lost. -/
theorem not_writesBack (tracked : core.Tracked) :
    ¬ core.rob.writesBack core.robWb core.rob.headPtrQ := by
  rintro ⟨accepted, isHead⟩
  have valid : core.memToWbQ.valid = true :=
    (Bool.and_eq_true_iff.mp accepted).1
  have carries : core.Carries .memToWb core.memToWbQ.instr := ⟨valid, rfl⟩
  have sameSlot : core.memToWbQ.instr.robIdx = core.rob.headPtrQ :=
    isHead.symm
  have occupied := (waits_iff.mp lost.waits).1
  have own := tracked.owned _ _ carries (sameSlot ▸ occupied)
  have sameId := congrArg RobOwn.kanataId own
  rw [sameSlot] at sameId
  have carriesFor :=
    carriesFor_iff.mpr ⟨_, carries, sameSlot, sameId.symm⟩
  rw [lost.uncarried] at carriesFor
  cases carriesFor

/-- What is lost is not found again. -/
theorem clock (tracked : core.Tracked) (answer : FetchAnswer) :
    (core.clock answer).Lost := by
  obtain ⟨sameHead, noFlush⟩ := headPtrQ_clock_of_waits lost.waits answer
  have notNext : core.decoded.robIdx ≠ core.rob.headPtrQ :=
    decoded_robIdx_ne tracked.window (waits_iff.mp lost.waits).1
  have notAllocated :
      ¬ core.rob.allocates (core.robAlloc answer) core.rob.headPtrQ := by
    rintro ⟨_, isTail⟩
    exact notNext (decoded_robIdx.trans isTail.symm)
  have waits : (core.clock answer).waits core.rob.headPtrQ = true :=
    (waits_clock_iff notAllocated).mpr
      ⟨lost.waits, noFlush, lost.not_writesBack tracked⟩
  have sameOwner := (waits_clock waits notAllocated).2.2.2
  refine ⟨sameHead.symm ▸ waits, fun place => ?_⟩
  rw [sameHead]
  by_contra found
  obtain ⟨instr, carries, sameSlot, sameId⟩ :=
    carriesFor_iff.mp (Bool.not_eq_false _ ▸ found)
  rcases carries_clock carries with ⟨_, _, rfl⟩ | ⟨source, _, before⟩
  · exact notNext sameSlot
  · have carriesFor :=
      carriesFor_iff.mpr
        ⟨instr, before, sameSlot, sameId.trans sameOwner⟩
    rw [lost.uncarried source] at carriesFor
    cases carriesFor

end Lost

end Datapath

namespace Core

variable {powerUp : Core} {start cycle horizon : Nat}

section Fresh

variable
  (fresh :
    ∀ cycle,
      cycle < horizon →
      (powerUp.run cycle).datapath.reuses (powerUp.run cycle).answer = false)
include fresh

/-- What is known of a run that hands out no index in use. -/
theorem run_kept_of_fresh (within : cycle ≤ horizon) :
    (powerUp.run cycle).datapath.StoresKept (powerUp.issued cycle) :=
  run_storesKept fun earlier before =>
    fresh earlier (Nat.lt_of_lt_of_le before within)

/-- Loads and stores stay in order. -/
theorem run_order_of_fresh (within : cycle ≤ horizon) :
    (powerUp.run cycle).datapath.AccessOrder := by
  induction cycle with
  | zero =>
      exact Datapath.accessOrder_reset powerUp.datapath
  | succ cycle inductionHypothesis =>
      have before : cycle ≤ horizon := Nat.le_of_succ_le within
      exact
        Datapath.accessOrder_clock (run_kept_of_fresh fresh before).tracked
          (fresh cycle within) (inductionHypothesis before)

/-- Nothing is mixed up as long as the head is not lost. -/
theorem run_steady
    (within : cycle ≤ horizon)
    (notLost : ¬ (powerUp.run cycle).datapath.Lost) :
    (powerUp.run cycle).datapath.Steady where
  tracked := (run_kept_of_fresh fresh within).tracked
  order := run_order_of_fresh fresh within
  buffers := (run_kept_of_fresh fresh within).buffers
  notLost := notLost

/-- A head that is lost stays lost. -/
theorem lost_of_le
    {later : Nat}
    (lost : (powerUp.run cycle).datapath.Lost)
    (ordered : cycle ≤ later)
    (within : later ≤ horizon) :
    (powerUp.run later).datapath.Lost := by
  induction ordered with
  | refl =>
      exact lost
  | step _ inductionHypothesis =>
      have before := Nat.le_of_succ_le within
      exact
        (inductionHypothesis before).clock
          (run_kept_of_fresh fresh before).tracked _

/-- From every cycle on, an instruction commits or the head is lost within 772
cycles. -/
theorem commits_or_lost (room : start + 772 < horizon) :
    Clocked.Within
      (fun cycle =>
        (powerUp.run cycle).datapath.commit.valid = true ∨
          (powerUp.run cycle).datapath.Lost)
      start 772 := by
  let goal : Nat → Prop := fun cycle =>
    (powerUp.run cycle).datapath.rob.commitValid = true ∨
      (powerUp.run cycle).datapath.Lost ∨ horizon ≤ cycle
  let answers : Nat → FetchAnswer := fun cycle => (powerUp.run cycle).answer
  have commits :
      ∀ cycle, powerUp.datapath.CommitsAt answers cycle → goal cycle := by
    intro cycle committing
    rw [Datapath.CommitsAt, run_datapath_eq] at committing
    exact .inl committing
  have steady :
      ∀ cycle,
        ¬ goal cycle →
        (powerUp.datapath.run answers cycle).Steady := by
    intro cycle waiting
    rw [run_datapath_eq]
    exact
      run_steady fresh
        (Nat.le_of_not_le fun beyond => waiting (.inr (.inr beyond)))
        fun lost => waiting (.inr (.inl lost))
  have within :=
    Datapath.commits_or_within commits
      (fun cycle waiting => (steady cycle waiting).orderly)
      (Datapath.moves_within steady commits)
      (fun start =>
        (powerUp.fetch_answers start).imp fun cycle _ =>
          Or.imp_right (commits cycle))
      start
  obtain ⟨delay, inTime, reached⟩ := within
  refine ⟨delay, inTime, ?_⟩
  rcases reached with committing | lost | beyond
  · exact .inl (Rob.commit_valid.trans committing)
  · exact .inr lost
  · omega

/--
In a run that hands out no index in use, the core is live until the instruction
at its head is lost.

* From every cycle on, an instruction commits or the head is lost within 772
  cycles: whatever the caches, the store buffer and the memory hold.
* A head that is lost stays lost, and nothing commits any more.
-/
theorem live_until_lost :
    (∀ start,
      start + 772 < horizon →
      Clocked.Within
        (fun cycle =>
          (powerUp.run cycle).datapath.commit.valid = true ∨
            (powerUp.run cycle).datapath.Lost)
        start 772) ∧
      ∀ cycle later,
        cycle ≤ later →
        later ≤ horizon →
        (powerUp.run cycle).datapath.Lost →
        (powerUp.run later).datapath.Lost ∧
          (powerUp.run later).datapath.commit.valid = false := by
  refine ⟨fun _ room => commits_or_lost fresh room, ?_⟩
  intro cycle later ordered within lost
  have lostLater := lost_of_le fresh lost ordered within
  exact ⟨lostLater, Rob.commit_valid.trans lostLater.commitValid_eq⟩

variable
  (kept :
    ∀ cycle,
      cycle < horizon → (powerUp.run cycle).datapath.dropsLast = false)

include kept in
omit fresh in
/-- Without a copy that is dropped nothing is lost. -/
theorem not_lost_of_kept (within : cycle ≤ horizon) :
    ¬ (powerUp.run cycle).datapath.Lost := by
  apply Datapath.not_lost_of_carried
  induction cycle with
  | zero =>
      intro slot waits
      cases waits
  | succ cycle inductionHypothesis =>
      exact
        Datapath.carried_clock (run_shaped powerUp cycle)
          (inductionHypothesis (Nat.le_of_succ_le within))
          (kept cycle within)

include kept in
/--
A run that neither hands out an index in use nor drops the last copy of an
instruction commits as many instructions as it has groups of 773 cycles,
whatever the program is.
-/
theorem commits_of_kept :
    horizon / 773 ≤ (powerUp.commits horizon).length := by
  have emits :
      ∀ start,
        start + 772 < horizon →
        Clocked.Within
          (fun cycle =>
            (if (powerUp.run cycle).datapath.commit.valid then
              some (powerUp.run cycle).datapath.commit
            else
              none).isSome)
          start 772 := by
    intro start room
    obtain ⟨delay, inTime, commits | lost⟩ := commits_or_lost fresh room
    · exact ⟨delay, inTime, by simp [commits]⟩
    · exact (not_lost_of_kept kept (by omega) lost).elim
  have fits := Nat.div_mul_le_self horizon 773
  exact
    Nat.le_trans (Clocked.le_length_collect_before emits (horizon / 773) fits)
      (Clocked.length_collect_le fits)

end Fresh

/-- Loads that miss, and stores past the end of the array. -/
def loadsAndStores : List Bus32 :=
  [ 0x20002283, -- lw x5, 512(x0)
    0xfe502e23, -- sw x5, -4(x0)
    0x24002303, -- lw x6, 576(x0)
    0xfe602c23 ] -- sw x6, -8(x0)

/-- The program is one without jumps and multiplications. -/
theorem loadsAndStores_straight :
    StraightProgram
      (programWord (withProgram loadsAndStores).datapath.mem.memory) := by
  have onProgram :
      loadsAndStores.all (fun word => decide (StraightWord word)) = true := by
    decide +kernel
  exact
    programWord_holding StraightWord
      (fun word member =>
        of_decide_eq_true (List.all_eq_true.mp onProgram word member))
      (by decide +kernel) (by decide +kernel)

/-- In cycle 31 the second load stalls the memory stage, and the first store
commits. -/
theorem loadsAndStores_stalls :
    ((withProgram loadsAndStores).run 31).datapath.stallFromMem = true ∧
      ((withProgram loadsAndStores).run 31).datapath.commit.storeToMem =
        true := by
  rw [observe_run (withProgram loadsAndStores)
      fun core => core.datapath.stallFromMem,
    observe_run (withProgram loadsAndStores)
      fun core => core.datapath.commit.storeToMem]
  decide +kernel

/-- For 5000 cycles the program is live until its head is lost, though its loads
and stores stall the memory stage. -/
theorem live_until_lost_loadsAndStores :
    (((withProgram loadsAndStores).run 31).datapath.stallFromMem = true ∧
        ((withProgram loadsAndStores).run 31).datapath.commit.storeToMem =
          true) ∧
      (∀ start,
        start + 772 < 5000 →
        Clocked.Within
          (fun cycle =>
            ((withProgram loadsAndStores).run cycle).datapath.commit.valid =
                true ∨
              ((withProgram loadsAndStores).run cycle).datapath.Lost)
          start 772) ∧
      ∀ cycle later,
        cycle ≤ later →
        later ≤ 5000 →
        ((withProgram loadsAndStores).run cycle).datapath.Lost →
        ((withProgram loadsAndStores).run later).datapath.Lost ∧
          ((withProgram loadsAndStores).run later).datapath.commit.valid =
            false :=
  ⟨loadsAndStores_stalls,
    live_until_lost fun cycle _ =>
      (orderly_of_straight loadsAndStores_straight cycle).1⟩

/-- The first 7730 cycles of the program commit ten instructions at least. -/
theorem commits_of_kept_loadsAndStores :
    (((withProgram loadsAndStores).run 31).datapath.stallFromMem = true ∧
        ((withProgram loadsAndStores).run 31).datapath.commit.storeToMem =
          true) ∧
      7730 / 773 ≤ ((withProgram loadsAndStores).commits 7730).length :=
  ⟨loadsAndStores_stalls,
    commits_of_kept
      (fun cycle _ => (orderly_of_straight loadsAndStores_straight cycle).1)
      fun cycle _ => (orderly_of_straight loadsAndStores_straight cycle).2⟩

end Core

end Tartaruga
