import Tartaruga.AccessExecution
import Tartaruga.DataCacheProgress
import Tartaruga.PipelineProgress

namespace Tartaruga

/-!
# The memory stage makes progress

A load waits for the cache, and behind the stores that leave the store buffer
in front of it.  A store waits for room.  The cache takes the oldest slot, or a
flush has discarded it, or its store has not committed; then the head of the
reorder buffer does not wait for the memory stage, and commits.
-/

namespace StoreBuffer

variable {buffer : StoreBuffer} {input : StoreBufferInput}

/-- A buffer to which nothing happens stays as it is. -/
theorem clock_of_quiet
    (noInsert : buffer.inserts input = false)
    (stays : buffer.dequeues input = false)
    (noCommit : input.commit = false)
    (noDiscard : ∀ slot, input.discard slot = false) :
    buffer.clock input = buffer := by
  have keepsHead : (buffer.handsOver input || buffer.drops) = false := stays
  have slots : buffer.storeBufferD input = buffer.storeBufferQ := by
    funext slot
    simp [storeBufferD, afterCommit, afterDequeue, afterInsert, noInsert,
      keepsHead, noCommit, noDiscard]
  have head : buffer.headPtrD input = buffer.headPtrQ := by
    simp [headPtrD, keepsHead]
  have tail : buffer.tailPtrD input = buffer.tailPtrQ := by
    simp [tailPtrD, noInsert]
  rw [clock, slots, head, tail]

/-- A dequeue makes room. -/
theorem WellFormed.reqReady_of_dequeues
    (wellFormed : buffer.WellFormed)
    (dequeues : buffer.dequeues input = true)
    (full : buffer.reqReady = false) :
    (buffer.clock input).reqReady = true := by
  have counted := (wellFormed.preserved input).2
  have noInsert : buffer.inserts input = false := by
    rw [inserts, full, Bool.and_false]
  have wasFull : buffer.occupancy = 4 := by
    rw [occupancy, full, if_neg Bool.false_ne_true]
  rw [noInsert, if_neg Bool.false_ne_true, dequeues, if_pos rfl, wasFull]
    at counted
  by_contra fullNext
  rw [occupancy, if_neg fullNext] at counted
  cases counted

/-- The oldest store is presented, dropped, or neither committed nor
discarded. -/
theorem oldest_cases
    (occupied : (buffer.storeBufferQ buffer.headPtrQ).valid = true) :
    buffer.rspValid = true ∨ buffer.drops = true ∨
      buffer.liveAt buffer.headPtrQ = true := by
  cases committed : (buffer.storeBufferQ buffer.headPtrQ).committed with
  | true =>
      simp [rspValid, headEntry, occupied, committed]
  | false =>
      cases discarded : (buffer.storeBufferQ buffer.headPtrQ).discarded with
      | true =>
          simp [drops, rspValid, headEntry, occupied, committed, discarded]
      | false =>
          simp [liveAt, occupied, committed, discarded]

end StoreBuffer

namespace Datapath

variable {core : Datapath} {answer : FetchAnswer} {slot : RobIdx}
  {owner rank : Nat}

/-- The store buffer gives up its oldest slot. -/
def dequeues (core : Datapath) (answer : FetchAnswer) : Bool :=
  core.mem.storeBuffer.dequeues (core.storeBufferInput answer)

/-- What is known of a pipeline that mixes up nothing and whose head is not
lost. -/
structure Steady (core : Datapath) : Prop where
  tracked : core.Tracked
  order : core.AccessOrder
  buffers : core.Matches
  notLost : ¬ core.Lost

namespace Steady

variable (steady : core.Steady)
include steady

theorem orderly : core.Orderly where
  window := steady.tracked.window
  shaped := steady.tracked.shaped
  notLost := steady.notLost

/-- What stands in front of the memory stage has a proper shape. -/
theorem shape_exeToMem (valid : core.exeToMemQ.valid = true) :
    core.exeToMemQ.instr.Shape :=
  steady.tracked.shaped .exeToMem _ ⟨valid, rfl⟩

/-- A load in front of the memory stage is no store. -/
theorem not_isStore
    (isLoad : MemStage.isLoad core.exeToMemQ = true) :
    MemStage.isStore core.exeToMemQ = false := by
  simp only [MemStage.isLoad, Bool.and_eq_true, beq_iff_eq] at isLoad
  have noStore := ((steady.shape_exeToMem isLoad.2).ofLoad isLoad.1).1
  simp [MemStage.isStore, noStore]

/-- A store that waits finds the store buffer full. -/
theorem full_of_stalls
    (isStore : MemStage.isStore core.exeToMemQ = true)
    (stalls : core.stallFromMem = true) :
    core.mem.storeBuffer.reqReady = false := by
  have valid : core.exeToMemQ.valid = true :=
    (Bool.and_eq_true_iff.mp isStore).2
  have shape := steady.shape_exeToMem valid
  rwa [stallFromMem_of_shape shape isStore, Bool.not_eq_true'] at stalls

/-- Nothing enters the store buffer behind a load. -/
theorem not_inserts
    (isLoad : MemStage.isLoad core.exeToMemQ = true)
    (answer : FetchAnswer) :
    core.mem.storeBuffer.inserts (core.storeBufferInput answer) = false := by
  change ((MemStage.isStore core.exeToMemQ && _) && _) = false
  rw [steady.not_isStore isLoad]
  rfl

/-- In a cycle without a commit a load that waits is shown again, unless the
store buffer gives up its oldest slot. -/
theorem held_of_load
    (silent : core.rob.commitValid = false)
    (isLoad : MemStage.isLoad core.exeToMemQ = true)
    (stalls : core.stallFromMem = true)
    (stays : core.dequeues answer = false) :
    (core.clock answer).exeToMemQ = core.exeToMemQ ∧
      (core.clock answer).mem.storeBuffer = core.mem.storeBuffer := by
  refine ⟨exeToMemQ_of_stalls stalls, ?_⟩
  rw [storeBuffer_clock]
  apply
    StoreBuffer.clock_of_quiet (steady.not_inserts isLoad answer) stays
  · exact Core.storeToMem_of_silent (Rob.commit_valid.trans silent)
  · apply not_discard_of_not_flush
    rw [Rob.flush, silent, Bool.false_and]

/-- A load that waits although the cache is ready waits for a store that the
cache takes. -/
theorem dequeues_of_ready
    (isLoad : MemStage.isLoad core.exeToMemQ = true)
    (stalls : core.stallFromMem = true)
    (ready : core.mem.dcacheReady core.exeToMemQ = true)
    (answer : FetchAnswer) :
    core.dequeues answer = true := by
  have presents : core.mem.storeBuffer.rspValid = true := by
    by_contra silent
    have noStore : core.mem.sbRspValid = false := Bool.not_eq_true _ ▸ silent
    simp [stallFromMem, MemStage.stall, MemStage.isCollision, ready, noStore,
      steady.not_isStore isLoad] at stalls
  change (_ && core.mem.dcacheReady core.exeToMemQ || _) = true
  rw [presents, ready]
  rfl

/-- A dequeue behind a load leaves one slot less. -/
theorem occupancy_of_dequeues
    (isLoad : MemStage.isLoad core.exeToMemQ = true)
    (dequeues : core.dequeues answer = true) :
    (core.clock answer).mem.storeBuffer.occupancy + 1 =
      core.mem.storeBuffer.occupancy := by
  have window := steady.buffers.window
  have counted := (window.preserved (core.storeBufferInput answer)).2
  have taken :
      core.mem.storeBuffer.dequeues (core.storeBufferInput answer) = true :=
    dequeues
  have some := window.occupancy_pos taken
  rw [steady.not_inserts isLoad, if_neg Bool.false_ne_true, taken,
    if_pos rfl] at counted
  rw [storeBuffer_clock, counted]
  omega

/-- A store that waits finds room after a dequeue. -/
theorem moves_of_dequeues
    (isStore : MemStage.isStore core.exeToMemQ = true)
    (stalls : core.stallFromMem = true)
    (dequeues : core.dequeues answer = true) :
    (core.clock answer).stallFromMem = false := by
  have valid : core.exeToMemQ.valid = true :=
    (Bool.and_eq_true_iff.mp isStore).2
  have shape := steady.shape_exeToMem valid
  have held : (core.clock answer).exeToMemQ = core.exeToMemQ :=
    exeToMemQ_of_stalls stalls
  have room :=
    steady.buffers.window.reqReady_of_dequeues dequeues
      (steady.full_of_stalls isStore stalls)
  rw [← held] at isStore shape
  rw [stallFromMem_of_shape shape isStore, storeBuffer_clock, room]
  rfl

end Steady

/-- The copies of the instruction that owns an entry are in the execute pipe
and leave it within so many cycles. -/
def Piped (core : Datapath) (slot : RobIdx) (owner rank : Nat) : Prop :=
  ∀ place instr,
    core.Carries place instr →
    IsOwner slot owner instr →
    ∃ stage, place = .exePipe stage ∧ 4 ≤ stage.val + rank

/-- The execute pipe moves while the memory stage stalls. -/
theorem Piped.clock
    (piped : core.Piped slot owner (rank + 1))
    (stalls : core.stallFromMem = true) :
    (core.clock answer).Piped slot owner rank := by
  intro place instr carries isOwner
  rcases carries_clock carries with
    ⟨_, allocated, _⟩ | ⟨source, feeds, before⟩
  · have noStall := (allocates_iff.mp allocated).1
    rw [stall_of_stallFromMem stalls] at noStall
    cases noStall
  · obtain ⟨stage, rfl, soon⟩ := piped source instr before isOwner
    generalize isSource : Place.exePipe stage = source at feeds
    cases feeds with
    | advance next =>
        injection isSource with same
        subst same
        refine ⟨next.succ, rfl, ?_⟩
        simp only [Fin.val_succ, Fin.val_castSucc] at soon ⊢
        omega
    | leave moves =>
        rw [stalls] at moves
        cases moves
    | _ =>
        cases isSource

/-- What has left the execute pipe is carried by nothing. -/
theorem Piped.not_waitsFor
    (piped : core.Piped slot owner 0)
    (notLost : ¬ core.Lost) :
    ¬ core.WaitsFor slot owner := by
  intro waitsFor
  obtain ⟨place, instr, carries, isOwner⟩ := waitsFor.exists_carrier notLost
  obtain ⟨stage, _, soon⟩ := piped place instr carries isOwner
  have bound := stage.isLt
  omega

/-- Behind a store that waits, and with an uncommitted store in the oldest slot,
the head of the reorder buffer commits in this cycle or the next one, or its
instruction is in the execute pipe. -/
theorem Steady.head_of_live
    (steady : core.Steady)
    (isStore : MemStage.isStore core.exeToMemQ = true)
    (isLive :
      core.mem.storeBuffer.liveAt core.mem.storeBuffer.headPtrQ = true)
    (answer : FetchAnswer) :
    core.rob.commitValid = true ∨
      (core.clock answer).rob.commitValid = true ∨
      ∃ owner,
        core.WaitsFor core.rob.headPtrQ owner ∧
          core.Piped core.rob.headPtrQ owner 4 := by
  obtain ⟨slot, buffered, _⟩ := steady.buffers.owner _ isLive
  have window := steady.tracked.window
  have occupied := head_occupied window buffered.1
  cases completed : (core.rob.robQ core.rob.headPtrQ).completed with
  | true =>
      exact .inl (Rob.commitValid_iff.mpr ⟨occupied, completed⟩)
  | false =>
      have waits : core.waits core.rob.headPtrQ = true :=
        waits_iff.mpr ⟨occupied, completed⟩
      have soon :
          ∀ instr,
            core.Carries .memToWb instr →
            IsOwner core.rob.headPtrQ
              (core.rob.robQ core.rob.headPtrQ).kanataId instr →
            (core.clock answer).rob.commitValid = true := by
        rintro instr carries ⟨sameSlot, sameOwner⟩
        apply commitValid_clock_of_writesBack waits
        exact
          writesBack_of_memToWb waits
            (carriesFor_iff.mpr ⟨instr, carries, sameSlot, sameOwner⟩)
      by_cases next : (core.clock answer).rob.commitValid = true
      · exact .inr (.inl next)
      · refine .inr (.inr ⟨_, ⟨rfl, waits, rfl⟩, ?_⟩)
        intro place instr carries isOwner
        cases place with
        | exePipe stage =>
            exact ⟨stage, rfl, Nat.le_add_left 4 stage.val⟩
        | memToWb =>
            exact (next (soon instr carries isOwner)).elim
        | exeToMem =>
            -- the store in front of the memory stage is the youngest one
            exfalso
            have storeAt : core.StoreAt .exeToMem core.rob.headPtrQ :=
              ⟨instr, carries,
                carries.2 ▸ (Bool.and_eq_true_iff.mp isStore).1, isOwner.1,
                occupied⟩
            have older := steady.buffers.youngest slot _ buffered storeAt
            rw [Ring.dist_self] at older
            exact Nat.not_lt_zero _ older
        | decodeToExe =>
            -- the newest instruction is the only one, and the buffered store
            exfalso
            have alone :=
              steady.order.newest instr carries (isOwner.1 ▸ occupied)
            rw [isOwner.1, Ring.dist_self] at alone
            have inside := (window slot).mp buffered.1
            rw [← alone] at inside
            have level :
                Ring.dist core.rob.headPtrQ slot =
                  Ring.dist core.rob.headPtrQ core.rob.headPtrQ := by
              rw [Ring.dist_self]
              omega
            obtain rfl := Ring.dist_injective level
            obtain ⟨writing, carriesWb, _, sameSlot, _⟩ :=
              buffered.2.2.resolve_left
                (completed ▸ Bool.false_ne_true)
            have own :=
              steady.tracked.owned _ writing carriesWb
                (sameSlot.symm ▸ occupied)
            have sameId := congrArg RobOwn.kanataId own
            rw [sameSlot] at sameId
            exact next (soon writing carriesWb ⟨sameSlot, sameId.symm⟩)

section Run

variable {powerUp : Datapath} {answers : Nat → FetchAnswer}
  {goal : Nat → Prop} {start : Nat}

/-- The memory stage moves, or the goal is reached. -/
def MovesOr
    (powerUp : Datapath)
    (answers : Nat → FetchAnswer)
    (goal : Nat → Prop)
    (cycle : Nat) :
    Prop :=
  (powerUp.run answers cycle).stallFromMem = false ∨ goal cycle

/-- The cache of a run is a run of the cache. -/
theorem run_dcacheSystem
    (powerUp : Datapath)
    (answers : Nat → FetchAnswer)
    (cycle : Nat) :
    (powerUp.run answers cycle).mem.dcacheSystem =
      powerUp.reset.mem.dcacheSystem.run
        (fun cycle => (powerUp.run answers cycle).shownRequest) cycle := by
  induction cycle with
  | zero =>
      rfl
  | succ cycle inductionHypothesis =>
      rw [DcacheSystem.run, Clocked.run, ← DcacheSystem.run,
        ← inductionHypothesis]
      exact MemStage.dcacheSystem_clock

/-- A request that the cache is shown goes on being shown until something
happens or the cache is ready, within 23 cycles. -/
theorem shown_within
    (situation settled : Nat → Prop)
    (asks :
      ∀ cycle,
        situation cycle →
        (powerUp.run answers cycle).shownRequest.valid = true)
    (held :
      ∀ cycle,
        situation cycle →
        ¬ settled cycle →
        (powerUp.run answers cycle).mem.dcacheReady
            (powerUp.run answers cycle).exeToMemQ =
          false →
        (powerUp.run answers (cycle + 1)).shownRequest =
            (powerUp.run answers cycle).shownRequest ∧
          situation (cycle + 1))
    (holds : situation start) :
    Clocked.Within
      (fun cycle =>
        situation cycle ∧
          (settled cycle ∨
            (powerUp.run answers cycle).mem.dcacheReady
                (powerUp.run answers cycle).exeToMemQ =
              true))
      start 23 := by
  have ready :
      ∀ cycle,
        (powerUp.reset.mem.dcacheSystem.run
            (fun cycle => (powerUp.run answers cycle).shownRequest)
            cycle).ready (powerUp.run answers cycle).shownRequest =
          (powerUp.run answers cycle).mem.dcacheReady
            (powerUp.run answers cycle).exeToMemQ := by
    intro cycle
    rw [← run_dcacheSystem]
    rfl
  have within :=
    DcacheSystem.acknowledges_or_within situation settled asks
      (fun cycle holds waiting notReady =>
        held cycle holds waiting ((ready cycle).symm.trans notReady))
      holds
  refine within.imp ?_
  rintro cycle _ ⟨holds, settled | acknowledged⟩
  · exact ⟨holds, .inl settled⟩
  · rw [DcacheSystem.acknowledges, Bool.and_eq_true] at acknowledged
    exact ⟨holds, .inr ((ready cycle).symm.trans acknowledged.2)⟩

variable (steady : ∀ cycle, ¬ goal cycle → (powerUp.run answers cycle).Steady)
include steady

/-- A store in front of the memory stage waits for no more than a dequeue. -/
theorem moves_of_dequeues
    (isStore :
      MemStage.isStore (powerUp.run answers start).exeToMemQ = true)
    (dequeues : (powerUp.run answers start).dequeues (answers start) = true) :
    Clocked.Within (powerUp.MovesOr answers goal) start 1 := by
  by_cases reached : powerUp.MovesOr answers goal start
  · exact .now reached
  · rw [MovesOr, not_or, Bool.not_eq_false] at reached
    obtain ⟨stalls, waiting⟩ := reached
    have moves :
        (powerUp.run answers (start + 1)).stallFromMem = false :=
      (steady start waiting).moves_of_dequeues isStore stalls dequeues
    exact (Clocked.Within.now (.inl moves)).later

/-- A store in front of the memory stage waits for room, which the cache makes
when it takes a committed one. -/
theorem moves_of_presents
    (isStore :
      MemStage.isStore (powerUp.run answers start).exeToMemQ = true)
    (presents :
      (powerUp.run answers start).mem.storeBuffer.rspValid = true) :
    Clocked.Within (powerUp.MovesOr answers goal) start 24 := by
  have taken :=
    shown_within
      (fun cycle =>
        MemStage.isStore (powerUp.run answers cycle).exeToMemQ = true ∧
          (powerUp.run answers cycle).mem.storeBuffer.rspValid = true)
      (powerUp.MovesOr answers goal)
      (by
        rintro cycle ⟨_, presents⟩
        change (_ || (powerUp.run answers cycle).mem.storeBuffer.rspValid) = _
        rw [presents, Bool.or_true])
      (by
        rintro cycle ⟨isStore, presents⟩ settled notReady
        rw [MovesOr, not_or, Bool.not_eq_false] at settled
        obtain ⟨stalls, waiting⟩ := settled
        have same :
            (powerUp.run answers (cycle + 1)).exeToMemQ =
              (powerUp.run answers cycle).exeToMemQ :=
          exeToMemQ_of_stalls stalls
        have window := (steady cycle waiting).buffers.window
        obtain ⟨presentsNext, shown⟩ :=
          shownRequest_of_presents window presents notReady
        exact ⟨shown, same ▸ isStore, presentsNext⟩)
      ⟨isStore, presents⟩
  change Clocked.Within _ start (23 + 1)
  apply taken.bind
  rintro cycle _ ⟨⟨isStore, presents⟩, settled | ready⟩
  · exact .now settled
  · have handed :
        (powerUp.run answers cycle).dequeues (answers cycle) = true := by
      change (_ && (powerUp.run answers cycle).mem.dcacheReady _ || _) = true
      rw [presents, ready]
      rfl
    exact moves_of_dequeues steady isStore handed

variable (commits : ∀ cycle, powerUp.CommitsAt answers cycle → goal cycle)
include commits

/-- A head of the reorder buffer whose instruction is in the execute pipe
commits, or the memory stage moves. -/
theorem moves_of_piped
    {slot : RobIdx}
    {owner rank : Nat}
    (waitsFor : (powerUp.run answers start).WaitsFor slot owner)
    (piped : (powerUp.run answers start).Piped slot owner rank) :
    Clocked.Within (powerUp.MovesOr answers goal) start rank := by
  induction rank generalizing start with
  | zero =>
      refine .now (.inr ?_)
      by_contra waiting
      exact piped.not_waitsFor (steady start waiting).notLost waitsFor
  | succ rank inductionHypothesis =>
      by_cases reached : powerUp.MovesOr answers goal start
      · exact .now reached
      · rw [MovesOr, not_or, Bool.not_eq_false] at reached
        obtain ⟨stalls, waiting⟩ := reached
        rcases waitsFor.clock (steady start waiting).tracked.window
          (answers start) with committing | ⟨waitsForNext, _⟩
        · have reachedNext := commits (start + 1) committing
          exact
            (Clocked.Within.now (.inr reachedNext)).later.of_le
              (Nat.succ_le_succ (Nat.zero_le rank))
        · have next :
              (powerUp.run answers (start + 1)).WaitsFor slot owner :=
            waitsForNext
          exact (inductionHypothesis next (piped.clock stalls)).later

/-- A store in front of the memory stage waits for 24 cycles at most. -/
theorem moves_of_store
    (isStore :
      MemStage.isStore (powerUp.run answers start).exeToMemQ = true) :
    Clocked.Within (powerUp.MovesOr answers goal) start 24 := by
  by_cases reached : powerUp.MovesOr answers goal start
  · exact .now reached
  · rw [MovesOr, not_or, Bool.not_eq_false] at reached
    obtain ⟨stalls, waiting⟩ := reached
    have now := steady start waiting
    have occupied :=
      (StoreBuffer.full_iff.mp (now.full_of_stalls isStore stalls)).2
    rcases StoreBuffer.oldest_cases occupied with
      presents | drops | isLive
    · exact moves_of_presents steady isStore presents
    · have dequeues :
          (powerUp.run answers start).dequeues (answers start) = true := by
        change (_ || (powerUp.run answers start).mem.storeBuffer.drops) = true
        rw [drops, Bool.or_true]
      exact (moves_of_dequeues steady isStore dequeues).of_le (by decide)
    · rcases now.head_of_live isStore isLive (answers start) with
        committing | committing | ⟨owner, waitsFor, piped⟩
      · exact .now (.inr (commits start committing))
      · have reachedNext := commits (start + 1) committing
        exact
          (Clocked.Within.now (.inr reachedNext)).later.of_le
            (by decide : 0 + 1 ≤ 24)
      · exact
          (moves_of_piped steady commits waitsFor piped).of_le (by decide)

/-- A load in front of the memory stage moves, or the store buffer gives up a
slot, within 23 cycles. -/
theorem dequeues_of_load
    {most : Nat}
    (isLoad : MemStage.isLoad (powerUp.run answers start).exeToMemQ = true)
    (few : (powerUp.run answers start).mem.storeBuffer.occupancy ≤ most) :
    Clocked.Within
      (fun cycle =>
        powerUp.MovesOr answers goal cycle ∨
          MemStage.isLoad (powerUp.run answers cycle).exeToMemQ = true ∧
            (powerUp.run answers cycle).mem.storeBuffer.occupancy ≤ most ∧
            (powerUp.run answers cycle).dequeues (answers cycle) = true)
      start 23 := by
  have within :=
    shown_within
      (fun cycle =>
        MemStage.isLoad (powerUp.run answers cycle).exeToMemQ = true ∧
          (powerUp.run answers cycle).mem.storeBuffer.occupancy ≤ most)
      (fun cycle =>
        powerUp.MovesOr answers goal cycle ∨
          (powerUp.run answers cycle).dequeues (answers cycle) = true)
      (by
        rintro cycle ⟨isLoad, _⟩
        change (MemStage.isLoad (powerUp.run answers cycle).exeToMemQ || _) = _
        rw [isLoad, Bool.true_or])
      (by
        rintro cycle ⟨isLoad, few⟩ unsettled _
        rw [not_or, MovesOr, not_or, Bool.not_eq_false, Bool.not_eq_true]
          at unsettled
        obtain ⟨⟨stalls, waiting⟩, stays⟩ := unsettled
        have silent : (powerUp.run answers cycle).rob.commitValid = false :=
          Bool.not_eq_true _ ▸ fun committing => waiting (commits _ committing)
        obtain ⟨sameLoad, sameStores⟩ :=
          (steady cycle waiting).held_of_load silent isLoad stalls stays
        have held :
            (powerUp.run answers (cycle + 1)).exeToMemQ =
                (powerUp.run answers cycle).exeToMemQ ∧
              (powerUp.run answers (cycle + 1)).mem.storeBuffer =
                (powerUp.run answers cycle).mem.storeBuffer :=
          ⟨sameLoad, sameStores⟩
        simp only [shownRequest, MemStage.dcacheRequest, MemStage.dcacheAddr,
          MemStage.sbRspValid, held]
        exact ⟨rfl, isLoad, few⟩)
      ⟨isLoad, few⟩
  refine within.imp ?_
  rintro cycle _ ⟨⟨isLoad, few⟩, (moves | dequeues) | ready⟩
  · exact .inl moves
  · exact .inr ⟨isLoad, few, dequeues⟩
  · by_cases moves : powerUp.MovesOr answers goal cycle
    · exact .inl moves
    · rw [MovesOr, not_or, Bool.not_eq_false] at moves
      have dequeues :=
        (steady cycle moves.2).dequeues_of_ready isLoad moves.1 ready
          (answers cycle)
      exact .inr ⟨isLoad, few, dequeues⟩

/-- A load in front of the memory stage waits for the cache, and for the stores
that leave the store buffer in the meantime. -/
theorem moves_of_load
    {most : Nat}
    (isLoad : MemStage.isLoad (powerUp.run answers start).exeToMemQ = true)
    (few : (powerUp.run answers start).mem.storeBuffer.occupancy ≤ most) :
    Clocked.Within (powerUp.MovesOr answers goal) start (23 + 24 * most) := by
  induction most generalizing start with
  | zero =>
      refine (dequeues_of_load steady commits isLoad few).imp ?_
      rintro cycle _ (moves | ⟨isLoad, none, dequeues⟩)
      · exact moves
      · by_contra waiting
        rw [MovesOr, not_or] at waiting
        have counted :=
          (steady cycle waiting.2).occupancy_of_dequeues isLoad dequeues
        omega
  | succ most inductionHypothesis =>
      apply (dequeues_of_load steady commits isLoad few).bind
      rintro cycle _ (moves | ⟨isLoad, few, dequeues⟩)
      · exact .now moves
      · by_cases moves : powerUp.MovesOr answers goal cycle
        · exact .now moves
        · rw [MovesOr, not_or, Bool.not_eq_false] at moves
          have counted :=
            (steady cycle moves.2).occupancy_of_dequeues isLoad dequeues
          have held :
              (powerUp.run answers (cycle + 1)).exeToMemQ =
                (powerUp.run answers cycle).exeToMemQ :=
            exeToMemQ_of_stalls moves.1
          have fewer :
              (powerUp.run answers (cycle + 1)).mem.storeBuffer.occupancy ≤
                most := by
            change
              ((powerUp.run answers cycle).clock
                (answers cycle)).mem.storeBuffer.occupancy ≤ most
            omega
          have onward := (inductionHypothesis (held ▸ isLoad) fewer).later
          exact onward.of_le (by omega)

/-- The memory stage never stalls for more than 119 cycles. -/
theorem moves_within : powerUp.MovesWithin answers goal 119 := by
  intro start
  cases stalls : (powerUp.run answers start).stallFromMem with
  | false =>
      exact .now (.inl stalls)
  | true =>
      cases isLoad : MemStage.isLoad (powerUp.run answers start).exeToMemQ with
      | true =>
          exact
            moves_of_load steady commits isLoad (StoreBuffer.occupancy_le _)
      | false =>
          have isStore :
              MemStage.isStore (powerUp.run answers start).exeToMemQ =
                true := by
            simp only [stallFromMem, MemStage.stall, MemStage.isCollision,
              isLoad, Bool.false_and, Bool.false_or, Bool.and_eq_true]
              at stalls
            exact stalls.1
          exact (moves_of_store steady commits isStore).of_le (by decide)

end Run

end Datapath

end Tartaruga
