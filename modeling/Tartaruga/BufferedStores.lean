import Tartaruga.StoreBufferDrain
import Tartaruga.StoreFlow

namespace Tartaruga

/-!
# Which stores are in the store buffer

The live slots of the store buffer are the stores in the reorder buffer that
have passed the memory stage, one slot for each and in the same order.  From
this correspondence the pipeline follows the protocol of the store buffer.
-/

namespace Datapath

variable {core : Datapath} {answer : FetchAnswer} {place : Place}
  {slot other : RobIdx}

/-- The store of an entry has passed the memory stage. -/
def Buffered (core : Datapath) (slot : RobIdx) : Prop :=
  (core.rob.robQ slot).valid = true ∧
    (core.rob.robQ slot).storeToMem = true ∧
      ((core.rob.robQ slot).completed = true ∨ core.StoreAt .memToWb slot)

/-- The store-buffer slot of such a store: on its way to the entry, or recorded
in it. -/
def bufferSlot (core : Datapath) (slot : RobIdx) : StoreBufferIdx :=
  if (core.rob.robQ slot).completed then (core.rob.robQ slot).storeBufferIdx
  else core.memToWbQ.storeBufferIdx

/-- The store of an entry passes the memory stage in this cycle. -/
def Enters (core : Datapath) (answer : FetchAnswer) (slot : RobIdx) : Prop :=
  core.StoreAt .exeToMem slot ∧ core.Survives answer slot ∧
    core.stallFromMem = false

/-- What the memory stage presents to the store buffer. -/
def storeBufferInput
    (core : Datapath)
    (answer : FetchAnswer) :
    StoreBufferInput :=
  core.mem.storeBufferInput core.exeToMemQ (core.memInput answer)

/-- The store buffer after the edge. -/
theorem storeBuffer_clock :
    (core.clock answer).mem.storeBuffer =
      core.mem.storeBuffer.clock (core.storeBufferInput answer) :=
  rfl

/-- A register carries one store at most. -/
theorem StoreAt.unique
    (storeAt : core.StoreAt place slot)
    (storeAtOther : core.StoreAt place other) :
    slot = other := by
  obtain ⟨instr, carries, _, rfl, _⟩ := storeAt
  obtain ⟨instr', carries', _, rfl, _⟩ := storeAtOther
  rw [← carries.2, ← carries'.2]

/-- A store in front of the memory stage stalls only for want of room. -/
theorem stallFromMem_of_shape
    (shape : core.exeToMemQ.instr.Shape)
    (isStore : MemStage.isStore core.exeToMemQ = true) :
    core.stallFromMem = !core.mem.storeBuffer.reqReady := by
  have flags := isStore
  simp only [MemStage.isStore, Bool.and_eq_true] at flags
  have origin := (shape.ofStore flags.1).1
  simp [stallFromMem, MemStage.stall, MemStage.isLoad, MemStage.isCollision,
    isStore, origin]

/-- The store buffer accepts exactly the stores that pass the memory stage. -/
theorem Tracked.inserts_iff
    (tracked : core.Tracked)
    (noReuse : core.reuses answer = false) :
    core.mem.storeBuffer.inserts (core.storeBufferInput answer) = true ↔
      ∃ slot, core.Enters answer slot := by
  change
    ((MemStage.isStore core.exeToMemQ && core.stillAlive answer) &&
      core.mem.storeBuffer.reqReady) = true ↔ _
  rw [Bool.and_eq_true, Bool.and_eq_true]
  constructor
  · rintro ⟨⟨isStore, alive⟩, ready⟩
    have flags := isStore
    simp only [MemStage.isStore, Bool.and_eq_true] at flags
    have carries : core.Carries .exeToMem core.exeToMemQ.instr :=
      ⟨flags.2, rfl⟩
    rcases survives_or_allocated alive with survives | allocated
    · refine ⟨core.exeToMemQ.instr.robIdx,
        ⟨_, carries, flags.1, rfl, survives.2.2.2⟩, survives, ?_⟩
      rw [stallFromMem_of_shape (tracked.shaped _ _ carries) isStore, ready]
      rfl
    · exact (robIdx_ne_tail noReuse allocated.1 (by simp) carries
        allocated.2).elim
  · rintro ⟨slot, storeAt, survives, moves⟩
    obtain ⟨instr, carries, isStore, rfl, _⟩ := storeAt
    have shape := tracked.shaped _ _ carries
    obtain ⟨valid, rfl⟩ := carries
    have present : MemStage.isStore core.exeToMemQ = true := by
      simp only [MemStage.isStore, Bool.and_eq_true]
      exact ⟨isStore, valid⟩
    rw [stallFromMem_of_shape shape present, Bool.not_eq_false'] at moves
    exact ⟨⟨present, survives.valid_clock⟩, moves⟩

section Movement

variable (tracked : core.Tracked) (noReuse : core.reuses answer = false)
  (inFlight : core.StoresInFlight)

include tracked noReuse in
/-- Which stores are buffered after the edge. -/
theorem buffered_clock :
    (core.clock answer).Buffered slot ↔
      core.Survives answer slot ∧
        (core.Buffered slot ∨ core.Enters answer slot) := by
  constructor
  · rintro ⟨valid, isStore, passed⟩
    rcases survives_or_allocated valid with survives | allocated
    · refine ⟨survives, ?_⟩
      rw [survives.storeToMem_clock] at isStore
      rcases passed with completed | writing
      · exact .inl ⟨survives.2.2.2, isStore,
          (completed_clock tracked survives isStore).mp completed⟩
      · obtain ⟨_, before, moves⟩ :=
          storeAt_memToWb_clock noReuse tracked writing
        exact .inr ⟨before, survives, moves⟩
    · rcases passed with completed | writing
      · rw [not_completed_of_allocates tracked.window allocated] at completed
        cases completed
      · exact ((storeAt_memToWb_clock noReuse tracked writing).1.2.2.1
          allocated).elim
  · rintro ⟨survives, ⟨valid, isStore, passed⟩ | ⟨before, _, moves⟩⟩
    · exact ⟨survives.valid_clock, survives.storeToMem_clock.trans isStore,
        .inl ((completed_clock tracked survives isStore).mpr passed)⟩
    · exact ⟨survives.valid_clock,
        survives.storeToMem_clock.trans
          (tracked.storeToMem_of_storeAt before),
        .inr (storeAt_memToWb_of survives before moves)⟩

include tracked inFlight in
/-- The write-back that a buffered store may have in this cycle records its
slot. -/
theorem storeBufferIdx_afterWb
    (buffered : core.Buffered slot)
    (alloc : RobAlloc) :
    (core.rob.robD alloc core.robWb slot).storeBufferIdx =
      core.bufferSlot slot := by
  have payload :
      (core.rob.robD alloc core.robWb slot).payload =
        if core.rob.writesBack core.robWb slot then core.robWb.payload
        else (core.rob.robQ slot).payload :=
    Rob.robD_payload
  change
    (core.rob.robD alloc core.robWb slot).payload.storeBufferIdx = _
  rw [payload, bufferSlot]
  obtain ⟨valid, isStore, passed⟩ := buffered
  have written := tracked.writesBack_iff valid isStore
  by_cases writing : core.StoreAt .memToWb slot
  · rw [if_pos (written.mpr writing), inFlight.inWriteBack slot writing]
    rfl
  · rw [if_neg (mt written.mp writing), passed.resolve_right writing]
    rfl

include tracked inFlight in
/-- A buffered store keeps its slot. -/
theorem bufferSlot_clock
    (buffered : core.Buffered slot)
    (survives : core.Survives answer slot) :
    (core.clock answer).bufferSlot slot = core.bufferSlot slot := by
  have completed :=
    (completed_clock tracked survives buffered.2.1).mpr buffered.2.2
  rw [bufferSlot, completed, if_pos rfl]
  exact storeBufferIdx_afterWb tracked inFlight buffered _

include tracked inFlight in
/-- A store that passes the memory stage takes the tail slot. -/
theorem bufferSlot_clock_of_enters (enters : core.Enters answer slot) :
    (core.clock answer).bufferSlot slot = core.mem.storeBuffer.tailPtrQ := by
  obtain ⟨storeAt, survives, _⟩ := enters
  obtain ⟨notCompleted, notWriting⟩ := inFlight.inMemory slot storeAt
  have stillOpen :
      ((core.clock answer).rob.robQ slot).completed = false := by
    rw [← Bool.not_eq_true, completed_clock tracked survives
      (tracked.storeToMem_of_storeAt storeAt)]
    simp [notCompleted, notWriting]
  rw [bufferSlot, stillOpen]
  rfl

end Movement

/-- Instructions that do not transfer control never claim to have done so. -/
structure StoresDoNotJump (core : Datapath) : Prop where
  inMemory :
    core.exeToMemQ.instr.jumpKind = .bnone →
    core.exeToMemQ.branchTaken = false
  inWriteBack :
    core.memToWbQ.instr.jumpKind = .bnone →
    core.memToWbQ.branchTaken = false
  completed :
    ∀ slot,
      (core.rob.robQ slot).valid = true →
      (core.rob.robQ slot).storeToMem = true →
      (core.rob.robQ slot).completed = true →
      (core.rob.robQ slot).branchTaken = false

/-- Nothing jumps after reset. -/
theorem storesDoNotJump_reset (core : Datapath) :
    core.reset.StoresDoNotJump where
  inMemory _ := rfl
  inWriteBack _ := rfl
  completed _ valid := by cases valid

/-- A clock edge keeps stores from jumping. -/
theorem storesDoNotJump_clock
    (tracked : core.Tracked)
    (stay : core.StoresDoNotJump) :
    (core.clock answer).StoresDoNotJump := by
  constructor
  · change
      (if !core.stallFromMem then core.exeToMemD
        else core.exeToMemQ).instr.jumpKind = _ →
      (if !core.stallFromMem then core.exeToMemD
        else core.exeToMemQ).branchTaken = false
    cases core.stallFromMem with
    | true =>
        exact stay.inMemory
    | false =>
        intro noJump
        change (core.exe.exePipeD core.decodeToExeQ 4).instr.jumpKind = _
          at noJump
        simp [exeToMemD, Exe.exeToMemD, noJump]
  · exact stay.inMemory
  · intro slot valid isStore completed
    rcases survives_or_allocated valid with survives | allocated
    · change
        ((core.clock answer).rob.robQ slot).payload.branchTaken = false
      rw [survives.storeToMem_clock] at isStore
      rw [completed_clock tracked survives isStore] at completed
      have written := tracked.writesBack_iff survives.2.2.2 isStore
      rw [payload_clock]
      by_cases writing : core.StoreAt .memToWb slot
      · rw [if_pos (written.mpr writing)]
        obtain ⟨instr, carries, isStore, _⟩ := writing
        have shape := tracked.shaped _ _ carries
        obtain ⟨_, rfl⟩ := carries
        exact stay.inWriteBack (shape.ofStore isStore).2.2.2
      · rw [if_neg (mt written.mp writing)]
        exact stay.completed slot survives.2.2.2 isStore
          (completed.resolve_right writing)
    · rw [not_completed_of_allocates tracked.window allocated] at completed
      cases completed

/--
The live slots of the store buffer are the stores in the reorder buffer that
have passed the memory stage, in the same order.
-/
structure Matches (core : Datapath) : Prop where
  window : core.mem.storeBuffer.WellFormed
  live :
    ∀ slot,
      core.Buffered slot →
      core.mem.storeBuffer.liveAt (core.bufferSlot slot) = true
  owner :
    ∀ bufferIdx,
      core.mem.storeBuffer.liveAt bufferIdx = true →
      ∃ slot, core.Buffered slot ∧ core.bufferSlot slot = bufferIdx
  ordered :
    ∀ before after,
      core.Buffered before →
      core.Buffered after →
      Ring.dist core.rob.headPtrQ before < Ring.dist core.rob.headPtrQ after →
      Ring.dist core.mem.storeBuffer.headPtrQ (core.bufferSlot before) <
        Ring.dist core.mem.storeBuffer.headPtrQ (core.bufferSlot after)
  youngest :
    ∀ before slot,
      core.Buffered before →
      core.StoreAt .exeToMem slot →
      Ring.dist core.rob.headPtrQ before < Ring.dist core.rob.headPtrQ slot

/-- Nothing is buffered after reset. -/
theorem not_buffered_reset (core : Datapath) : ¬ core.reset.Buffered slot := by
  rintro ⟨valid, _⟩
  cases valid

/-- Reset empties both buffers. -/
theorem matches_reset (core : Datapath) : core.reset.Matches where
  window := StoreBuffer.wellFormed_reset
  live _ buffered := (not_buffered_reset core buffered).elim
  owner _ isLive := by cases isLive
  ordered _ _ buffered := (not_buffered_reset core buffered).elim
  youngest _ _ buffered := (not_buffered_reset core buffered).elim

/-- Two stores do not share a slot of the store buffer. -/
theorem Matches.bufferSlot_injective
    (buffers : core.Matches)
    (buffered : core.Buffered slot)
    (bufferedOther : core.Buffered other)
    (same : core.bufferSlot slot = core.bufferSlot other) :
    slot = other := by
  rcases Nat.lt_trichotomy (Ring.dist core.rob.headPtrQ slot)
    (Ring.dist core.rob.headPtrQ other) with before | level | after
  · have ordered := buffers.ordered _ _ buffered bufferedOther before
    rw [same] at ordered
    exact (Nat.lt_irrefl _ ordered).elim
  · exact Ring.dist_injective level
  · have ordered := buffers.ordered _ _ bufferedOther buffered after
    rw [same] at ordered
    exact (Nat.lt_irrefl _ ordered).elim

/-- A committing store is buffered, in the slot that its commit names. -/
theorem buffered_of_commit (commits : core.commit.storeToMem = true) :
    core.rob.commitValid = true ∧ core.Buffered core.rob.headPtrQ ∧
      core.bufferSlot core.rob.headPtrQ = core.commit.storeBufferIdx ∧
      core.commit.kanataId =
        (core.rob.robQ core.rob.headPtrQ).kanataId := by
  unfold commit Rob.commit at commits ⊢
  cases valid : core.rob.commitValid with
  | false =>
      rw [valid] at commits
      cases commits
  | true =>
      rw [valid] at commits
      have flags := valid
      simp only [Rob.commitValid, Bool.and_eq_true] at flags
      refine ⟨rfl, ⟨flags.1, commits, .inl flags.2⟩, ?_, rfl⟩
      rw [bufferSlot, if_pos flags.2]
      rfl

/-- A flush names the slot of every buffered store. -/
theorem discards_buffered
    (tracked : core.Tracked)
    (inFlight : core.StoresInFlight)
    (stay : core.StoresDoNotJump)
    (buffered : core.Buffered slot)
    (flushes : core.rob.flush = true) :
    (core.storeBufferInput answer).discard (core.bufferSlot slot) = true := by
  have commits := Rob.commitValid_of_flush flushes
  have notRetired : ¬ core.rob.retires slot := by
    rintro ⟨_, rfl⟩
    simp only [Rob.flush, Rob.commitValid, Bool.and_eq_true] at flushes
    have noJump :=
      stay.completed _ flushes.1.1 buffered.2.1 flushes.1.2
    rw [flushes.2] at noJump
    cases noJump
  have notAllocated :
      ¬ core.rob.allocates (core.robAlloc answer) slot := by
    rintro ⟨allocated, _⟩
    have noFlush := (allocates_iff.mp allocated).2.2
    rw [flushes] at noFlush
    cases noFlush
  have names := storeBufferIdx_afterWb tracked inFlight buffered
    (core.robAlloc answer)
  have isStore :
      (core.rob.robD (core.robAlloc answer) core.robWb slot).storeToMem =
        true := by
    change
      (core.rob.robD (core.robAlloc answer) core.robWb
        slot).own.storeToMem = true
    rw [Rob.robD_own, if_neg notAllocated]
    exact buffered.2.1
  unfold Rob.robD at names isStore
  rw [if_pos flushes] at names isStore
  have valid :
      (core.rob.afterCommit (core.robAlloc answer) core.robWb slot).valid =
        true := by
    rw [Rob.afterCommit_apply, if_neg notRetired, Rob.afterWb_apply,
      if_neg notAllocated]
    split
    · exact buffered.1
    · exact buffered.1
  change
    (core.rob.flush &&
      (List.finRange 16).any fun index =>
        (core.rob.afterCommit (core.robAlloc answer) core.robWb index).valid &&
          (core.rob.afterCommit (core.robAlloc answer) core.robWb
            index).storeToMem &&
          (core.rob.afterCommit (core.robAlloc answer) core.robWb
            index).storeBufferIdx == core.bufferSlot slot) = true
  rw [flushes, Bool.true_and, List.any_eq_true]
  refine ⟨slot, List.mem_finRange slot, ?_⟩
  rw [Bool.and_eq_true, Bool.and_eq_true, beq_iff_eq]
  exact ⟨⟨valid, isStore⟩, names⟩

/-- A cycle without a flush discards nothing. -/
theorem not_discard_of_not_flush
    (noFlush : core.rob.flush = false)
    (bufferIdx : StoreBufferIdx) :
    (core.storeBufferInput answer).discard bufferIdx = false := by
  change (core.rob.flush && _) = false
  rw [noFlush, Bool.false_and]

/-- The pipeline follows the protocol of the store buffer. -/
theorem follows_of_matches
    (tracked : core.Tracked)
    (noReuse : core.reuses answer = false)
    (inFlight : core.StoresInFlight)
    (stay : core.StoresDoNotJump)
    (buffers : core.Matches) :
    core.mem.storeBuffer.Follows (core.storeBufferInput answer) := by
  have flushes :
      StoreBuffer.discards (core.storeBufferInput answer) = true →
        core.rob.flush = true := by
    intro discarding
    by_contra noFlush
    rw [Bool.not_eq_true] at noFlush
    simp [StoreBuffer.discards, not_discard_of_not_flush noFlush]
      at discarding
  constructor
  · intro commits
    obtain ⟨_, buffered, names, _⟩ := buffered_of_commit commits
    have isLive := buffers.live _ buffered
    rwa [names] at isLive
  · intro commits bufferIdx isLive
    obtain ⟨_, buffered, names, _⟩ := buffered_of_commit commits
    obtain ⟨slot, bufferedOther, rfl⟩ := buffers.owner bufferIdx isLive
    change Ring.dist _ core.commit.storeBufferIdx ≤ _
    rw [← names]
    by_cases isHead : slot = core.rob.headPtrQ
    · rw [isHead]
    · apply Nat.le_of_lt
      apply buffers.ordered _ _ buffered bufferedOther
      rw [Ring.dist_self]
      exact Nat.pos_of_ne_zero fun zero =>
        isHead (Ring.dist_eq_zero.mp zero)
  · intro discarding bufferIdx isLive
    obtain ⟨slot, buffered, rfl⟩ := buffers.owner bufferIdx isLive
    exact discards_buffered tracked inFlight stay buffered
      (flushes discarding)
  · intro discarding
    have flush := flushes discarding
    constructor
    · rw [← Bool.not_eq_true, tracked.inserts_iff noReuse]
      rintro ⟨slot, _, survives, _⟩
      rw [survives.1] at flush
      cases flush
    · by_contra commits
      obtain ⟨_, buffered, _, _⟩ :=
        buffered_of_commit (Bool.not_eq_false _ ▸ commits)
      simp only [Rob.flush, Rob.commitValid, Bool.and_eq_true] at flush
      have noJump :=
        stay.completed _ flush.1.1 buffered.2.1 flush.1.2
      rw [flush.2] at noJump
      cases noJump

section Preservation

variable (tracked : core.Tracked) (noReuse : core.reuses answer = false)
  (inFlight : core.StoresInFlight) (stay : core.StoresDoNotJump)
  (buffers : core.Matches)

include tracked noReuse in
/-- A store that passes the memory stage fills the tail slot. -/
theorem fills_of_enters (enters : core.Enters answer slot) :
    core.mem.storeBuffer.fills (core.storeBufferInput answer)
      core.mem.storeBuffer.tailPtrQ :=
  ⟨(tracked.inserts_iff noReuse).mpr ⟨slot, enters⟩, rfl⟩

include tracked noReuse inFlight stay buffers

/-- The slot of a buffered store is live after the edge. -/
theorem live_clock (buffered : (core.clock answer).Buffered slot) :
    (core.clock answer).mem.storeBuffer.liveAt
      ((core.clock answer).bufferSlot slot) = true := by
  have follows :=
    follows_of_matches tracked noReuse inFlight stay buffers
  rw [storeBuffer_clock, StoreBuffer.liveAt_clock buffers.window follows]
  obtain ⟨survives, before | enters⟩ :=
    (buffered_clock tracked noReuse).mp buffered
  · rw [bufferSlot_clock tracked inFlight before survives]
    refine .inr ⟨buffers.live _ before, ?_,
      not_discard_of_not_flush survives.1 _⟩
    rintro ⟨commits, isNamed⟩
    obtain ⟨valid, bufferedHead, names, _⟩ := buffered_of_commit commits
    exact survives.2.1
      ⟨valid, buffers.bufferSlot_injective before bufferedHead
        (isNamed.trans names.symm)⟩
  · rw [bufferSlot_clock_of_enters tracked inFlight enters]
    exact .inl (fills_of_enters tracked noReuse enters)

/-- Every live slot after the edge is that of a buffered store. -/
theorem owner_clock
    {bufferIdx : StoreBufferIdx}
    (isLive :
      (core.clock answer).mem.storeBuffer.liveAt bufferIdx = true) :
    ∃ slot,
      (core.clock answer).Buffered slot ∧
        (core.clock answer).bufferSlot slot = bufferIdx := by
  have follows :=
    follows_of_matches tracked noReuse inFlight stay buffers
  rw [storeBuffer_clock, StoreBuffer.liveAt_clock buffers.window follows]
    at isLive
  rcases isLive with ⟨inserts, rfl⟩ | ⟨isLive, notNamed, notDiscarded⟩
  · obtain ⟨slot, enters⟩ := (tracked.inserts_iff noReuse).mp inserts
    exact ⟨slot,
      (buffered_clock tracked noReuse).mpr ⟨enters.2.1, .inr enters⟩,
      bufferSlot_clock_of_enters tracked inFlight enters⟩
  · obtain ⟨slot, buffered, rfl⟩ := buffers.owner bufferIdx isLive
    have survives : core.Survives answer slot := by
      refine ⟨?_, ?_, ?_, buffered.1⟩
      · by_contra flushes
        rw [discards_buffered tracked inFlight stay buffered
          (Bool.not_eq_false _ ▸ flushes)] at notDiscarded
        cases notDiscarded
      · rintro ⟨commits, rfl⟩
        have commitsStore : core.commit.storeToMem = true := by
          unfold commit Rob.commit
          rw [if_pos commits]
          exact buffered.2.1
        exact notNamed
          ⟨commitsStore, (buffered_of_commit commitsStore).2.2.1⟩
      · rintro ⟨_, rfl⟩
        have valid := buffered.1
        rw [tracked.window.tail_free] at valid
        cases valid
    exact ⟨slot,
      (buffered_clock tracked noReuse).mpr ⟨survives, .inl buffered⟩,
      bufferSlot_clock tracked inFlight buffered survives⟩

/-- How far the slot of a buffered store was from the head before the edge. -/
theorem dist_bufferSlot_clock
    (buffered : (core.clock answer).Buffered slot) :
    Ring.dist (core.clock answer).mem.storeBuffer.headPtrQ
          ((core.clock answer).bufferSlot slot) +
        (if core.mem.storeBuffer.dequeues (core.storeBufferInput answer)
          then 1 else 0) =
      Ring.dist core.mem.storeBuffer.headPtrQ
        ((core.clock answer).bufferSlot slot) := by
  have isLive := live_clock tracked noReuse inFlight stay buffers buffered
  simp only [StoreBuffer.liveAt, Bool.and_eq_true] at isLive
  exact StoreBuffer.WellFormed.dist_headPtrD
    (StoreBuffer.storeBufferD_valid.mp isLive.1.1).1

omit tracked noReuse inFlight stay buffers in
/-- How far an entry that survives was from the head before the edge. -/
theorem dist_survives_clock (survives : core.Survives answer slot) :
    Ring.dist (core.clock answer).rob.headPtrQ slot +
        (if core.rob.commitValid = true then 1 else 0) =
      Ring.dist core.rob.headPtrQ slot :=
  Rob.WellFormed.dist_headPtrD survives.1 survives.2.1

/-- The slots of two buffered stores are in the order of their entries. -/
theorem ordered_clock
    {before after : RobIdx}
    (buffered : (core.clock answer).Buffered before)
    (bufferedAfter : (core.clock answer).Buffered after)
    (closer :
      Ring.dist (core.clock answer).rob.headPtrQ before <
        Ring.dist (core.clock answer).rob.headPtrQ after) :
    Ring.dist (core.clock answer).mem.storeBuffer.headPtrQ
        ((core.clock answer).bufferSlot before) <
      Ring.dist (core.clock answer).mem.storeBuffer.headPtrQ
        ((core.clock answer).bufferSlot after) := by
  have distBefore :=
    dist_bufferSlot_clock tracked noReuse inFlight stay buffers buffered
  have distAfter :=
    dist_bufferSlot_clock tracked noReuse inFlight stay buffers
      bufferedAfter
  obtain ⟨survives, wasBefore⟩ :=
    (buffered_clock tracked noReuse).mp buffered
  obtain ⟨survivesAfter, wasAfter⟩ :=
    (buffered_clock tracked noReuse).mp bufferedAfter
  have shiftBefore := dist_survives_clock survives
  have shiftAfter := dist_survives_clock survivesAfter
  have wasCloser :
      Ring.dist core.rob.headPtrQ before <
        Ring.dist core.rob.headPtrQ after := by
    omega
  suffices ordered :
      Ring.dist core.mem.storeBuffer.headPtrQ
          ((core.clock answer).bufferSlot before) <
        Ring.dist core.mem.storeBuffer.headPtrQ
          ((core.clock answer).bufferSlot after) by
    omega
  rcases wasBefore with wasBefore | entersBefore
  · rw [bufferSlot_clock tracked inFlight wasBefore survives]
    rcases wasAfter with wasAfter | entersAfter
    · rw [bufferSlot_clock tracked inFlight wasAfter survivesAfter]
      exact buffers.ordered _ _ wasBefore wasAfter wasCloser
    · rw [bufferSlot_clock_of_enters tracked inFlight entersAfter]
      have atEnd :=
        (StoreBuffer.WellFormed.fills_iff.mp
          (fills_of_enters tracked noReuse entersAfter)).2
      have isLive := buffers.live _ wasBefore
      simp only [StoreBuffer.liveAt, Bool.and_eq_true] at isLive
      rw [atEnd]
      exact (buffers.window _).mp isLive.1.1
  · rcases wasAfter with wasAfter | entersAfter
    · have behind := buffers.youngest _ _ wasAfter entersBefore.1
      omega
    · rw [entersBefore.1.unique entersAfter.1] at wasCloser
      exact (Nat.lt_irrefl _ wasCloser).elim

omit stay in
/-- A store in front of the memory stage is younger than every buffered
store. -/
theorem youngest_clock
    {before : RobIdx}
    (buffered : (core.clock answer).Buffered before)
    (storeAt : (core.clock answer).StoreAt .exeToMem slot) :
    Ring.dist (core.clock answer).rob.headPtrQ before <
      Ring.dist (core.clock answer).rob.headPtrQ slot := by
  obtain ⟨survives, wasBefore⟩ :=
    (buffered_clock tracked noReuse).mp buffered
  obtain ⟨survivesSlot, source⟩ :=
    storeAt_exeToMem_clock noReuse tracked storeAt
  have shiftBefore := dist_survives_clock survives
  have shiftSlot := dist_survives_clock survivesSlot
  suffices wasCloser :
      Ring.dist core.rob.headPtrQ before <
        Ring.dist core.rob.headPtrQ slot by
    omega
  rcases source with ⟨issued, _⟩ | ⟨held, stalls⟩
  · obtain ⟨notCompleted, notInMemory, notWriting⟩ :=
      inFlight.issued slot issued
    have last := inFlight.newest slot issued
    have inside := (tracked.window before).mp survives.2.2.2
    have different : before ≠ slot := by
      rintro rfl
      rcases wasBefore with ⟨_, _, completed | writing⟩ | enters
      · rw [notCompleted] at completed
        cases completed
      · exact notWriting writing
      · exact notInMemory enters.1
    have apart :
        Ring.dist core.rob.headPtrQ before ≠
          Ring.dist core.rob.headPtrQ slot :=
      fun same => different (Ring.dist_injective same)
    omega
  · rcases wasBefore with wasBefore | enters
    · exact buffers.youngest _ _ wasBefore held
    · rw [enters.2.2] at stalls
      cases stalls

/-- The correspondence survives every cycle that does not hand out an index in
use. -/
theorem matches_clock : (core.clock answer).Matches where
  window := (buffers.window.preserved (core.storeBufferInput answer)).1
  live _ buffered :=
    live_clock tracked noReuse inFlight stay buffers buffered
  owner _ isLive :=
    owner_clock tracked noReuse inFlight stay buffers isLive
  ordered _ _ buffered bufferedAfter closer :=
    ordered_clock tracked noReuse inFlight stay buffers buffered
      bufferedAfter closer
  youngest _ _ buffered storeAt :=
    youngest_clock tracked noReuse inFlight buffers buffered storeAt

end Preservation

end Datapath

end Tartaruga
