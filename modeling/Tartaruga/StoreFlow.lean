import Tartaruga.InFlightIdentity

namespace Tartaruga

/-!
# How stores move through the pipeline

A store that still owns its reorder-buffer entry stands in at most one of the
registers between decode and write-back, completes only through the last of
them, and passes them in program order.
-/

namespace Datapath

variable {core : Datapath} {answer : FetchAnswer} {instr : InstrData}
  {place : Place} {slot : RobIdx}

/-- The register carries the store that owns the entry. -/
def StoreAt (core : Datapath) (place : Place) (slot : RobIdx) : Prop :=
  ∃ instr,
    core.Carries place instr ∧ instr.storeToMem = true ∧
      instr.robIdx = slot ∧ (core.rob.robQ slot).valid = true

/-- The entry is in use before and after the edge, for one instruction. -/
def Survives
    (core : Datapath)
    (answer : FetchAnswer)
    (slot : RobIdx) :
    Prop :=
  core.rob.flush = false ∧ ¬ core.rob.retires slot ∧
    ¬ core.rob.allocates (core.robAlloc answer) slot ∧
    (core.rob.robQ slot).valid = true

/-- An entry in use after the edge survives, or was allocated. -/
theorem survives_or_allocated
    (valid : ((core.clock answer).rob.robQ slot).valid = true) :
    core.Survives answer slot ∨
      core.rob.allocates (core.robAlloc answer) slot := by
  obtain ⟨noFlush, stays, source⟩ := Rob.robD_valid.mp valid
  by_cases allocated : core.rob.allocates (core.robAlloc answer) slot
  · exact .inr allocated
  · exact .inl
      ⟨noFlush, stays, allocated, source.resolve_left allocated⟩

/-- A surviving entry is in use after the edge. -/
theorem Survives.valid_clock (survives : core.Survives answer slot) :
    ((core.clock answer).rob.robQ slot).valid = true :=
  Rob.robD_valid.mpr
    ⟨survives.1, survives.2.1, .inr survives.2.2.2⟩

/-- A surviving entry keeps its record. -/
theorem Survives.own_clock (survives : core.Survives answer slot) :
    ((core.clock answer).rob.robQ slot).own = (core.rob.robQ slot).own := by
  rw [Datapath.own_clock, if_neg survives.2.2.1]

theorem Survives.storeToMem_clock (survives : core.Survives answer slot) :
    ((core.clock answer).rob.robQ slot).storeToMem =
      (core.rob.robQ slot).storeToMem :=
  congrArg RobOwn.storeToMem survives.own_clock

theorem Survives.kanataId_clock (survives : core.Survives answer slot) :
    ((core.clock answer).rob.robQ slot).kanataId =
      (core.rob.robQ slot).kanataId :=
  congrArg RobOwn.kanataId survives.own_clock

/-- Only multiplications travel through the execute pipe. -/
def MulPipe (core : Datapath) : Prop :=
  ∀ stage instr, core.Carries (.exePipe stage) instr → instr.isMul = true

/-- A clock edge puts multiplications into the execute pipe only. -/
theorem mulPipe_clock
    (shaped : core.Shaped)
    (mulPipe : core.MulPipe) :
    (core.clock answer).MulPipe := by
  intro stage instr carries
  rcases carries_clock carries with
    ⟨isFirst, _, _⟩ | ⟨source, feeds, carriesBefore⟩
  · cases isFirst
  · generalize isTarget : Place.exePipe stage = target at feeds
    cases feeds with
    | enter entered entry =>
        injection isTarget with sameStage
        subst sameStage
        have shape := shaped _ _ carriesBefore
        obtain ⟨_, rfl⟩ := carriesBefore
        exact (Exe.isMul_of_entrySlot shape entry).1
    | advance earlier =>
        exact mulPipe _ _ carriesBefore
    | _ =>
        cases isTarget

/-- What is known of the pipeline in a run that never hands out an index in
use. -/
structure Tracked (core : Datapath) : Prop where
  window : core.rob.WellFormed
  shaped : core.Shaped
  mulPipe : core.MulPipe
  owned : core.Owned
  numbered : core.DecodeNumbered
  carriedIds :
    ∀ place instr, core.Carries place instr → instr.kanataId < core.nextId
  entryIds :
    ∀ slot,
      (core.rob.robQ slot).valid = true →
      (core.rob.robQ slot).kanataId < core.nextId
  sameSlot :
    ∀ place instr slot,
      core.Carries place instr →
      (core.rob.robQ slot).valid = true →
      instr.kanataId = (core.rob.robQ slot).kanataId →
      instr.robIdx = slot

/-- Nothing is in flight after reset. -/
theorem tracked_reset (core : Datapath) : core.reset.Tracked where
  window := Rob.wellFormed_reset _
  shaped _ _ carries := (not_carries_reset core carries).elim
  mulPipe _ _ carries := (not_carries_reset core carries).elim
  owned _ _ carries := (not_carries_reset core carries).elim
  numbered valid := by cases valid
  carriedIds _ _ carries := (not_carries_reset core carries).elim
  entryIds _ valid := by cases valid
  sameSlot _ _ _ carries := (not_carries_reset core carries).elim

/-- The record that an allocation writes. -/
theorem own_of_allocates
    (allocated : core.rob.allocates (core.robAlloc answer) slot) :
    ((core.clock answer).rob.robQ slot).own = core.decoded.own := by
  rw [own_clock, if_pos allocated, robAlloc_own]

/-- What is known of the pipeline survives every cycle that does not hand out
an index in use. -/
theorem tracked_clock
    (tracked : core.Tracked)
    (noReuse : core.reuses answer = false) :
    (core.clock answer).Tracked := by
  have grows : core.nextId ≤ (core.clock answer).nextId :=
    nextId_le_clock tracked.numbered
  refine
    { window := rob_wellFormed_clock tracked.window
      shaped := shaped_clock tracked.shaped
      mulPipe := mulPipe_clock tracked.shaped tracked.mulPipe
      owned := owned_clock tracked.owned noReuse
      numbered := decodeNumbered_clock tracked.numbered
      carriedIds := ?_
      entryIds := ?_
      sameSlot := ?_ }
  · intro place instr carries
    rcases carries_clock carries with
      ⟨_, allocated, rfl⟩ | ⟨source, _, carriesBefore⟩
    · obtain ⟨sameId, moves⟩ :=
        nextId_of_allocates tracked.numbered allocated
      rw [sameId]
      exact moves
    · exact Nat.lt_of_lt_of_le
        (tracked.carriedIds source instr carriesBefore) grows
  · intro slot valid
    rcases survives_or_allocated valid with survives | allocated
    · rw [survives.kanataId_clock]
      exact Nat.lt_of_lt_of_le
        (tracked.entryIds slot survives.2.2.2) grows
    · obtain ⟨sameId, moves⟩ :=
        nextId_of_allocates tracked.numbered allocated.1
      have own := congrArg RobOwn.kanataId (own_of_allocates allocated)
      change _ = core.decoded.kanataId at own
      exact Nat.lt_of_le_of_lt (Nat.le_of_eq (own.trans sameId)) moves
  · intro place instr slot carries valid sameId
    rcases carries_clock carries with
      ⟨_, allocates, rfl⟩ | ⟨source, _, carriesBefore⟩
    · have newest := (nextId_of_allocates tracked.numbered allocates).1
      rcases survives_or_allocated valid with survives | allocated
      · rw [survives.kanataId_clock, newest] at sameId
        have older := tracked.entryIds slot survives.2.2.2
        omega
      · rw [allocated.2]
        exact decoded_robIdx
    · have older := tracked.carriedIds source instr carriesBefore
      rcases survives_or_allocated valid with survives | allocated
      · rw [survives.kanataId_clock] at sameId
        exact tracked.sameSlot source instr slot carriesBefore
          survives.2.2.2 sameId
      · have newest :=
          (nextId_of_allocates tracked.numbered allocated.1).1
        have own := congrArg RobOwn.kanataId (own_of_allocates allocated)
        change _ = core.decoded.kanataId at own
        rw [sameId] at older
        change ((core.clock answer).rob.robQ slot).kanataId < _ at older
        rw [show ((core.clock answer).rob.robQ slot).kanataId = _ from own,
          newest] at older
        omega

/-- A store in a register owns its entry. -/
theorem Tracked.storeToMem_of_storeAt
    (tracked : core.Tracked)
    (storeAt : core.StoreAt place slot) :
    (core.rob.robQ slot).storeToMem = true := by
  obtain ⟨instr, carries, isStore, rfl, valid⟩ := storeAt
  have own := tracked.owned place instr carries valid
  exact (congrArg RobOwn.storeToMem own).trans isStore

/-- The entry of a store completes exactly when the store stands in the
write-back register. -/
theorem Tracked.writesBack_iff
    (tracked : core.Tracked)
    (valid : (core.rob.robQ slot).valid = true)
    (isStore : (core.rob.robQ slot).storeToMem = true) :
    core.rob.writesBack core.robWb slot ↔ core.StoreAt .memToWb slot := by
  constructor
  · rintro ⟨accepted, rfl⟩
    simp only [Rob.acceptsWb, Bool.and_eq_true] at accepted
    have carries : core.Carries .memToWb core.memToWbQ.instr :=
      ⟨accepted.1, rfl⟩
    have own := tracked.owned _ _ carries valid
    refine ⟨_, carries, ?_, rfl, valid⟩
    exact (congrArg RobOwn.storeToMem own).symm.trans isStore
  · rintro ⟨instr, ⟨isValid, rfl⟩, _, rfl, _⟩
    refine ⟨?_, rfl⟩
    simp only [Rob.acceptsWb, Bool.and_eq_true]
    exact ⟨isValid, valid⟩

/-- A store does not travel through the execute pipe. -/
theorem Tracked.not_storeAt_exePipe
    (tracked : core.Tracked)
    (stage : Fin 4) :
    ¬ core.StoreAt (.exePipe stage) slot := by
  rintro ⟨instr, carries, isStore, _⟩
  have isMul := tracked.mulPipe stage instr carries
  have shape := tracked.shaped _ _ carries
  rw [(shape.ofMul isMul).2.1] at isStore
  cases isStore

/-- A stalled memory stage does not pass a store on. -/
theorem stallFromMem_of_store
    (tracked : core.Tracked)
    (storeAt : core.StoreAt .exeToMem slot)
    (finishes : core.memToWbD.valid = true) :
    core.stallFromMem = false := by
  obtain ⟨instr, carries, isStore, _⟩ := storeAt
  have shape := tracked.shaped _ _ carries
  obtain ⟨valid, rfl⟩ := carries
  change core.exeToMemQ.valid = true at valid
  change core.exeToMemQ.instr.storeToMem = true at isStore
  have origin : core.exeToMemQ.instr.wbOrigin = .alu :=
    (shape.ofStore isStore).1
  simp [memToWbD, MemStage.memToWbD, MemStage.validNoMem,
    MemStage.validLoadBypass, MemStage.validLoadDcache,
    MemStage.validStore, valid, isStore, origin] at finishes
  simp [stallFromMem, MemStage.stall, MemStage.isLoad, MemStage.isCollision,
    MemStage.isStore, isStore, origin, finishes]

section Movement

variable (noReuse : core.reuses answer = false)
include noReuse

/-- A store in a register after the edge came from a register that feeds it
and survives the edge, or it is allocated in this cycle. -/
theorem storeAt_clock
    (storeAt : (core.clock answer).StoreAt place slot) :
    (place = .decodeToExe ∧
        core.rob.allocates (core.robAlloc answer) slot) ∨
      ∃ source,
        core.Feeds source place ∧ core.StoreAt source slot ∧
          core.Survives answer slot := by
  obtain ⟨instr, carries, isStore, rfl, valid⟩ := storeAt
  rcases carries_clock carries with
    ⟨isFirst, allocated, rfl⟩ | ⟨source, feeds, carriesBefore⟩
  · exact .inl ⟨isFirst, allocated, decoded_robIdx⟩
  · rcases survives_or_allocated valid with survives | allocated
    · exact .inr ⟨source, feeds,
        ⟨instr, carriesBefore, isStore, rfl, survives.2.2.2⟩, survives⟩
    · exact (robIdx_ne_tail noReuse allocated.1 feeds.source_ne_memToWb
        carriesBefore allocated.2).elim

/-- Where a store behind decode comes from. -/
theorem storeAt_decodeToExe_clock
    (storeAt : (core.clock answer).StoreAt .decodeToExe slot) :
    core.rob.allocates (core.robAlloc answer) slot ∨
      (core.StoreAt .decodeToExe slot ∧ core.Survives answer slot ∧
        (core.stallFromExe = true ∨ core.stallFromMem = true)) := by
  rcases storeAt_clock noReuse storeAt with
    ⟨_, allocated⟩ | ⟨source, feeds, before, survives⟩
  · exact .inl allocated
  · cases feeds with
    | holdExe held =>
        exact .inr ⟨before, survives, held⟩

/-- Where a store in front of the memory stage comes from. -/
theorem storeAt_exeToMem_clock
    (tracked : core.Tracked)
    (storeAt : (core.clock answer).StoreAt .exeToMem slot) :
    core.Survives answer slot ∧
      ((core.StoreAt .decodeToExe slot ∧ core.stallFromExe = false ∧
          core.stallFromMem = false) ∨
        (core.StoreAt .exeToMem slot ∧ core.stallFromMem = true)) := by
  rcases storeAt_clock noReuse storeAt with
    ⟨isFirst, _⟩ | ⟨source, feeds, before, survives⟩
  · cases isFirst
  · refine ⟨survives, ?_⟩
    cases feeds with
    | single memMoves exeMoves =>
        exact .inl ⟨before, exeMoves, memMoves⟩
    | leave =>
        exact (tracked.not_storeAt_exePipe _ before).elim
    | holdMem held =>
        exact .inr ⟨before, held⟩

/-- Where a store in the write-back register comes from. -/
theorem storeAt_memToWb_clock
    (tracked : core.Tracked)
    (storeAt : (core.clock answer).StoreAt .memToWb slot) :
    core.Survives answer slot ∧ core.StoreAt .exeToMem slot ∧
      core.stallFromMem = false := by
  rcases storeAt_clock noReuse storeAt with
    ⟨isFirst, _⟩ | ⟨source, feeds, before, survives⟩
  · cases isFirst
  · cases feeds with
    | finish finishes =>
        exact ⟨survives, before,
          stallFromMem_of_store tracked before finishes⟩

end Movement

/-- A store passes from memory to write-back unless the stage stalls. -/
theorem storeAt_memToWb_of
    (survives : core.Survives answer slot)
    (storeAt : core.StoreAt .exeToMem slot)
    (moves : core.stallFromMem = false) :
    (core.clock answer).StoreAt .memToWb slot := by
  obtain ⟨instr, ⟨valid, rfl⟩, isStore, sameSlot, _⟩ := storeAt
  exact ⟨_, ⟨memToWbD_valid valid moves, rfl⟩, isStore, sameSlot,
    survives.valid_clock⟩

/-- After the edge, a surviving store entry is completed if it was or if its
store stood in the write-back register. -/
theorem completed_clock
    (tracked : core.Tracked)
    (survives : core.Survives answer slot)
    (isStore : (core.rob.robQ slot).storeToMem = true) :
    ((core.clock answer).rob.robQ slot).completed = true ↔
      (core.rob.robQ slot).completed = true ∨
        core.StoreAt .memToWb slot := by
  change
    (core.rob.robD (core.robAlloc answer) core.robWb slot).completed =
      true ↔ _
  rw [Rob.robD_completed, if_neg survives.2.2.1,
    ← tracked.writesBack_iff survives.2.2.2 isStore]
  split
  · rename_i written
    simp [written]
  · rename_i notWritten
    simp [notWritten]

/-- A newly allocated entry is not completed. -/
theorem not_completed_of_allocates
    (window : core.rob.WellFormed)
    (allocated : core.rob.allocates (core.robAlloc answer) slot) :
    ((core.clock answer).rob.robQ slot).completed = false := by
  have notWritten : ¬ core.rob.writesBack core.robWb slot := by
    intro written
    have valid := Rob.writesBack_valid written
    rw [allocated.2, window.tail_free] at valid
    cases valid
  change
    (core.rob.robD (core.robAlloc answer) core.robWb slot).completed = false
  rw [Rob.robD_completed, if_neg notWritten, if_pos allocated]

/--
Stores in flight: each stands in one register, its entry is open, and the one
behind decode is the newest instruction in the reorder buffer.
-/
structure StoresInFlight (core : Datapath) : Prop where
  newest :
    ∀ slot,
      core.StoreAt .decodeToExe slot →
      Ring.dist core.rob.headPtrQ slot + 1 = core.rob.occupancy
  issued :
    ∀ slot,
      core.StoreAt .decodeToExe slot →
      (core.rob.robQ slot).completed = false ∧
        ¬ core.StoreAt .exeToMem slot ∧ ¬ core.StoreAt .memToWb slot
  inMemory :
    ∀ slot,
      core.StoreAt .exeToMem slot →
      (core.rob.robQ slot).completed = false ∧
        ¬ core.StoreAt .memToWb slot
  inWriteBack :
    ∀ slot,
      core.StoreAt .memToWb slot →
      (core.rob.robQ slot).completed = false

/-- No store is in flight after reset. -/
theorem storesInFlight_reset (core : Datapath) : core.reset.StoresInFlight := by
  have none : ∀ place slot, ¬ core.reset.StoreAt place slot := by
    rintro place slot ⟨instr, carries, _⟩
    exact not_carries_reset core carries
  exact
    { newest := fun slot storeAt => (none _ slot storeAt).elim
      issued := fun slot storeAt => (none _ slot storeAt).elim
      inMemory := fun slot storeAt => (none _ slot storeAt).elim
      inWriteBack := fun slot storeAt => (none _ slot storeAt).elim }

section Preservation

variable {place : Place} {slot : RobIdx}

/-- The entry of a store that is not at write-back stays open. -/
theorem Tracked.open_clock
    (tracked : core.Tracked)
    (storeAt : core.StoreAt place slot)
    (survives : core.Survives answer slot)
    (notCompleted : (core.rob.robQ slot).completed = false)
    (notWriting : ¬ core.StoreAt .memToWb slot) :
    ((core.clock answer).rob.robQ slot).completed = false := by
  rw [← Bool.not_eq_true, completed_clock tracked survives
    (tracked.storeToMem_of_storeAt storeAt)]
  simp [notCompleted, notWriting]

variable (tracked : core.Tracked) (noReuse : core.reuses answer = false)
  (inFlight : core.StoresInFlight)
include tracked noReuse

/-- A store behind decode is at the end of the reorder buffer: it was
allocated in this cycle, or nothing was allocated behind it. -/
theorem StoresInFlight.newest_clock
    (inFlight : core.StoresInFlight)
    (storeAt : (core.clock answer).StoreAt .decodeToExe slot) :
    Ring.dist (core.clock answer).rob.headPtrQ slot + 1 =
      (core.clock answer).rob.occupancy := by
  rcases storeAt_decodeToExe_clock noReuse storeAt with
    allocated | ⟨before, survives, held⟩
  · exact tracked.window.dist_allocated robAlloc_admits allocated core.robWb
  · have noAlloc : ¬ (core.robAlloc answer).validDecode = true := by
      intro allocates
      have noStall := (allocates_iff.mp allocates).1
      rcases held with fromExe | fromMem
      · rw [stall_of_stallFromExe fromExe] at noStall
        cases noStall
      · rw [stall_of_stallFromMem fromMem] at noStall
        cases noStall
    have admitted : core.rob.Admits (core.robAlloc answer) :=
      robAlloc_admits
    have counted := tracked.window.occupancy_clock admitted core.robWb
    rw [survives.1, if_neg Bool.false_ne_true, if_neg noAlloc] at counted
    have shift :=
      Rob.WellFormed.dist_headPtrD survives.1 survives.2.1
    have last := inFlight.newest slot before
    change
      Ring.dist core.rob.headPtrD slot + 1 =
        (core.rob.clock (core.robAlloc answer) core.robWb).occupancy
    rw [counted]
    omega

/-- The entry of a store behind decode is open, and the store is nowhere
further on. -/
theorem StoresInFlight.issued_clock
    (inFlight : core.StoresInFlight)
    (storeAt : (core.clock answer).StoreAt .decodeToExe slot) :
    ((core.clock answer).rob.robQ slot).completed = false ∧
      ¬ (core.clock answer).StoreAt .exeToMem slot ∧
        ¬ (core.clock answer).StoreAt .memToWb slot := by
  rcases storeAt_decodeToExe_clock noReuse storeAt with
    allocated | ⟨before, survives, held⟩
  · refine ⟨not_completed_of_allocates tracked.window allocated, ?_, ?_⟩
    · intro inMemory
      exact (storeAt_exeToMem_clock noReuse tracked inMemory).1.2.2.1
        allocated
    · intro writing
      exact (storeAt_memToWb_clock noReuse tracked writing).1.2.2.1
        allocated
  · obtain ⟨notCompleted, notInMemory, notWriting⟩ :=
      inFlight.issued slot before
    refine ⟨tracked.open_clock before survives notCompleted notWriting,
      ?_, ?_⟩
    · intro inMemory
      rcases (storeAt_exeToMem_clock noReuse tracked inMemory).2 with
        ⟨_, exeMoves, memMoves⟩ | ⟨already, _⟩
      · rcases held with fromExe | fromMem
        · rw [exeMoves] at fromExe
          cases fromExe
        · rw [memMoves] at fromMem
          cases fromMem
      · exact notInMemory already
    · intro writing
      exact notInMemory
        (storeAt_memToWb_clock noReuse tracked writing).2.1

/-- The entry of a store behind execute is open, and the store is not at
write-back. -/
theorem StoresInFlight.inMemory_clock
    (inFlight : core.StoresInFlight)
    (storeAt : (core.clock answer).StoreAt .exeToMem slot) :
    ((core.clock answer).rob.robQ slot).completed = false ∧
      ¬ (core.clock answer).StoreAt .memToWb slot := by
  obtain ⟨survives, ⟨before, _, _⟩ | ⟨before, held⟩⟩ :=
    storeAt_exeToMem_clock noReuse tracked storeAt
  · obtain ⟨notCompleted, notInMemory, notWriting⟩ :=
      inFlight.issued slot before
    refine ⟨tracked.open_clock before survives notCompleted notWriting, ?_⟩
    intro writing
    exact notInMemory
      (storeAt_memToWb_clock noReuse tracked writing).2.1
  · obtain ⟨notCompleted, notWriting⟩ := inFlight.inMemory slot before
    refine ⟨tracked.open_clock before survives notCompleted notWriting, ?_⟩
    intro writing
    have moves :=
      (storeAt_memToWb_clock noReuse tracked writing).2.2
    rw [held] at moves
    cases moves

/-- The entry of a store at write-back is open. -/
theorem StoresInFlight.inWriteBack_clock
    (inFlight : core.StoresInFlight)
    (storeAt : (core.clock answer).StoreAt .memToWb slot) :
    ((core.clock answer).rob.robQ slot).completed = false := by
  obtain ⟨survives, before, _⟩ :=
    storeAt_memToWb_clock noReuse tracked storeAt
  obtain ⟨notCompleted, notWriting⟩ := inFlight.inMemory slot before
  exact tracked.open_clock before survives notCompleted notWriting

include inFlight

/-- Stores stay in order through every cycle that does not hand out an index
in use. -/
theorem storesInFlight_clock : (core.clock answer).StoresInFlight where
  newest _ storeAt := inFlight.newest_clock tracked noReuse storeAt
  issued _ storeAt := inFlight.issued_clock tracked noReuse storeAt
  inMemory _ storeAt := inFlight.inMemory_clock tracked noReuse storeAt
  inWriteBack _ storeAt := inFlight.inWriteBack_clock tracked noReuse storeAt

end Preservation

end Datapath

end Tartaruga
