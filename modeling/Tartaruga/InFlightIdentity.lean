import Tartaruga.Carriers
import Tartaruga.CoreEvaluation

namespace Tartaruga

/-!
# Whose write-back it is

A flush restarts the reorder buffer at index zero while instructions from the
abandoned path are still on their way.  What a write-back or a store meets
under its index is its own entry as long as no index is handed out again while
such an instruction still carries it.
-/

/-- The part of an instruction that its reorder-buffer entry records. -/
def InstrData.own (data : InstrData) : RobOwn where
  pc := data.pc
  instr := data.instr
  addrRd := data.addrRd
  writeEnable := data.writeEnable
  storeToMem := data.storeToMem
  kanataId := data.kanataId

namespace Datapath

variable {core : Datapath} {answer : FetchAnswer} {instr : InstrData}
  {place : Place}

/-- The registers that an instruction leaves later than the cycle of its
write-back. -/
def upstream : List Place :=
  [.decodeToExe, .exePipe 0, .exePipe 1, .exePipe 2, .exePipe 3, .exeToMem]

/-- Every register but the last one is upstream. -/
theorem mem_upstream (notLast : place ≠ .memToWb) : place ∈ upstream := by
  cases place with
  | exePipe stage =>
      match stage with
      | 0 | 1 | 2 | 3 => simp [upstream]
  | memToWb =>
      exact (notLast rfl).elim
  | _ =>
      simp [upstream]

/-- Decode hands out an index that an instruction upstream of write-back still
carries. -/
def reuses (core : Datapath) (answer : FetchAnswer) : Bool :=
  core.allocates answer &&
    upstream.any fun place =>
      (core.register place).1 &&
        (core.register place).2.robIdx == core.rob.tailPtrQ

/-- An instruction upstream of write-back does not carry the index that decode
hands out, unless decode hands out a used one. -/
theorem robIdx_ne_tail
    (noReuse : core.reuses answer = false)
    (allocated : core.allocates answer = true)
    (notLast : place ≠ .memToWb)
    (carries : core.Carries place instr) :
    instr.robIdx ≠ core.rob.tailPtrQ := by
  intro isTail
  obtain ⟨valid, rfl⟩ := carries
  have reused : core.reuses answer = true := by
    simp only [reuses, allocated, Bool.true_and, List.any_eq_true,
      Bool.and_eq_true, beq_iff_eq]
    exact ⟨place, mem_upstream notLast, valid, isTail⟩
  rw [noReuse] at reused
  cases reused

/-- Every carried instruction finds its own record under its index, if the
index is in use at all. -/
def Owned (core : Datapath) : Prop :=
  ∀ place instr,
    core.Carries place instr →
    (core.rob.robQ instr.robIdx).valid = true →
    (core.rob.robQ instr.robIdx).own = instr.own

/-- What decode presents for allocation is the record of its instruction. -/
theorem robAlloc_own : (core.robAlloc answer).own = core.decoded.own :=
  rfl

/-- An entry that an instruction upstream finds after the edge is its own. -/
theorem own_robD
    (owned : core.Owned)
    (noReuse : core.reuses answer = false)
    (notLast : place ≠ .memToWb)
    (carries : core.Carries place instr)
    (valid :
      (core.rob.robD (core.robAlloc answer) core.robWb
        instr.robIdx).valid = true) :
    (core.rob.robD (core.robAlloc answer) core.robWb instr.robIdx).own =
      instr.own := by
  have notAllocated :
      ¬ core.rob.allocates (core.robAlloc answer) instr.robIdx := by
    rintro ⟨allocated, isTail⟩
    exact robIdx_ne_tail noReuse allocated notLast carries isTail
  have validBefore : (core.rob.robQ instr.robIdx).valid = true :=
    (Rob.robD_valid.mp valid).2.2.resolve_left notAllocated
  rw [Rob.robD_own, if_neg notAllocated]
  exact owned place instr carries validBefore

/-- Ownership survives every cycle that does not hand out a used index. -/
theorem owned_clock
    (owned : core.Owned)
    (noReuse : core.reuses answer = false) :
    (core.clock answer).Owned := by
  intro place instr carries valid
  change
    (core.rob.robD (core.robAlloc answer) core.robWb
      instr.robIdx).valid = true at valid
  change
    (core.rob.robD (core.robAlloc answer) core.robWb instr.robIdx).own =
      instr.own
  rcases carries_clock carries with
    ⟨_, allocated, rfl⟩ | ⟨source, feeds, carriesBefore⟩
  · have allocates :
        core.rob.allocates (core.robAlloc answer) core.decoded.robIdx :=
      ⟨allocated, decoded_robIdx⟩
    rw [Rob.robD_own, if_pos allocates, robAlloc_own]
  · exact own_robD owned noReuse feeds.source_ne_memToWb carriesBefore valid

/-- Nothing is carried after reset. -/
theorem owned_reset (core : Datapath) : core.reset.Owned := by
  intro place instr carries
  exact (not_carries_reset core carries).elim

/--
A flush isolates what it squashes: an accepted write-back belongs to the
instruction that owns the entry, and a store that is still alive owns the
entry that keeps it alive.
-/
structure Isolated (core : Datapath) (answer : FetchAnswer) : Prop where
  writeBack :
    core.rob.acceptsWb core.robWb = true →
    core.memToWbQ.instr.kanataId =
      (core.rob.robQ core.memToWbQ.instr.robIdx).kanataId
  store :
    MemStage.isStore core.exeToMemQ = true →
    core.stillAlive answer = true →
    core.exeToMemQ.instr.kanataId =
      (core.rob.robD (core.robAlloc answer) core.robWb
        core.exeToMemQ.instr.robIdx).kanataId

/-- Ownership isolates in every cycle that does not hand out a used index. -/
theorem isolated_of_owned
    (owned : core.Owned)
    (noReuse : core.reuses answer = false) :
    core.Isolated answer := by
  constructor
  · intro accepted
    simp only [Rob.acceptsWb, robWb, Bool.and_eq_true] at accepted
    have own := owned .memToWb core.memToWbQ.instr ⟨accepted.1, rfl⟩
      accepted.2
    exact (congrArg RobOwn.kanataId own).symm
  · intro isStore alive
    simp only [MemStage.isStore, Bool.and_eq_true] at isStore
    have own :=
      own_robD owned noReuse (by simp)
        (show core.Carries .exeToMem core.exeToMemQ.instr from
          ⟨isStore.2, rfl⟩) alive
    exact (congrArg RobOwn.kanataId own).symm

end Datapath

namespace Core

/-- Ownership holds along a run that has not handed out a used index. -/
theorem run_owned
    {powerUp : Core}
    {cycle : Nat}
    (fresh :
      ∀ earlier,
        earlier < cycle →
        (powerUp.run earlier).datapath.reuses
          (powerUp.run earlier).answer = false) :
    (powerUp.run cycle).datapath.Owned :=
  run_invariant (Datapath.owned_reset _)
    (fun _ _ noReuse owned => Datapath.owned_clock owned noReuse) cycle fresh

/--
In every run that never hands out an index while an instruction upstream of
write-back still carries it, a flush isolates what it squashes, in every state
reached.  The identifiers that are compared differ between any two
allocations of the run.
-/
theorem isolated_of_fresh
    {powerUp : Core}
    {cycle : Nat}
    (fresh :
      ∀ earlier,
        earlier ≤ cycle →
        (powerUp.run earlier).datapath.reuses
          (powerUp.run earlier).answer = false) :
    (powerUp.run cycle).datapath.Isolated (powerUp.run cycle).answer ∧
      ∀ earlier,
        earlier < cycle →
        (powerUp.run earlier).datapath.allocates
          (powerUp.run earlier).answer = true →
        (powerUp.run cycle).datapath.allocates
          (powerUp.run cycle).answer = true →
        (powerUp.run earlier).datapath.decoded.kanataId <
          (powerUp.run cycle).datapath.decoded.kanataId := by
  have owned := run_owned fun earlier before => fresh earlier before.le
  exact ⟨Datapath.isolated_of_owned owned (fresh cycle (Nat.le_refl _)),
    fun _ ordered first second =>
      powerUp.allocations_increase ordered first second⟩

/-- The multiplication at address eight is skipped by the jump in front of it,
and four instructions follow at the target. -/
def jumpOverMul : List Bus32 :=
  [ 0x0100006f, -- jal x0, 16
    0x00000013, -- addi x0, x0, 0
    0x020002b3, -- mul x5, x0, x0
    0x00000013, -- addi x0, x0, 0
    0x02000333 ] -- mul x6, x0, x0

/-- While the first instructions of that program pass, no index is handed out
twice. -/
theorem isolated_of_fresh_jumpOverMul :
    ((withProgram jumpOverMul).run 16).datapath.Isolated
      ((withProgram jumpOverMul).run 16).answer := by
  have passed :
      Strict.always Core.clock
        (fun core => !core.datapath.reuses core.answer) 16
        (withProgram jumpOverMul).reset = true := by
    decide +kernel
  have fresh :
      ∀ earlier,
        earlier ≤ 16 →
        ((withProgram jumpOverMul).run earlier).datapath.reuses
          ((withProgram jumpOverMul).run earlier).answer = false := by
    intro earlier covered
    simpa using check_run passed covered
  exact (isolated_of_fresh fresh).1

/-- What the write-back stage of a core claims and what the buffer holds: the
accepted flag, the address of the instruction written back, and the address
of the instruction that owns the entry. -/
def writeBackOwner (core : Core) : Bool × Bus32 × Bus32 :=
  (core.datapath.rob.acceptsWb core.datapath.robWb,
    core.datapath.memToWbQ.instr.pc,
    (core.datapath.rob.robQ core.datapath.memToWbQ.instr.robIdx).pc)

/--
The squashed multiplication from address eight completes the entry of the
instruction at address twenty-four, which was allocated after the flush.
-/
theorem squashed_mul_not_isolated :
    writeBackOwner ((withProgram jumpOverMul).run 21) = (true, 8, 24) ∧
      ¬ ((withProgram jumpOverMul).run 21).datapath.Isolated
        ((withProgram jumpOverMul).run 21).answer := by
  have observed :
      Strict.observe Core.clock
        (fun core =>
          (writeBackOwner core,
            core.datapath.memToWbQ.instr.kanataId ==
              (core.datapath.rob.robQ
                core.datapath.memToWbQ.instr.robIdx).kanataId)) 21
        (withProgram jumpOverMul).reset = ((true, 8, 24), false) := by
    decide +kernel
  rw [← observe_run (withProgram jumpOverMul), Prod.mk.injEq] at observed
  generalize (withProgram jumpOverMul).run 21 = core at observed ⊢
  obtain ⟨owner, differs⟩ := observed
  refine ⟨owner, ?_⟩
  intro isolated
  have same := isolated.writeBack (congrArg Prod.fst owner)
  rw [← beq_iff_eq, differs] at same
  cases same

end Core

end Tartaruga
