import Tartaruga.CommittedStores
import Tartaruga.LoadAnswers
import Tartaruga.RegisterExecution

namespace Tartaruga

/-!
# Programs with loads and stores are executed

The core with its caches, its store buffer and its memory, as long as nothing
disturbs the way of loads and stores: the commits are those of the machine with
a memory, and so are the registers and, once everything is written back, the
memory.
-/

namespace DcacheSystem

variable {system : DcacheSystem} {request next : DcacheRequest}
  {acked : Memory} {age : Nat} {addr other : Bus32}

/-- A line is fetched for all its addresses. -/
theorem Fetching.of_sameLine
    (fetching : system.Fetching age addr)
    (sameLine : Dcache.lineAligned other = Dcache.lineAligned addr) :
    system.Fetching age other where
  state := fetching.state
  requested := fetching.requested
  request := by
    rw [sameLine]
    exact fetching.request
  answered := fetching.answered
  loaded := by
    rw [sameLine]
    exact fetching.loaded

/-- A read may be replaced by another request, while its line is fetched by one
of the same line. -/
theorem Flat.of_read
    (flat : system.Flat request acked)
    (reads : request.we = false)
    (replaced :
      system.dcache.state ≠ .idle →
      next.valid = true ∧
        Dcache.lineAligned next.addr = Dcache.lineAligned request.addr) :
    system.Flat next acked where
  coherent := flat.coherent
  pending := by
    rcases flat.pending with same | ⟨⟨_, writes⟩, _⟩
    · exact .inl same
    · rw [reads] at writes
      cases writes
  phase := by
    rcases flat.phase with idle | ⟨_, age, bound, fetching⟩
    · exact .inl idle
    · have busy : system.dcache.state ≠ .idle := by
        rw [fetching.state]
        split <;> decide
      obtain ⟨asks, sameLine⟩ := replaced busy
      exact .inr ⟨asks, age, bound, fetching.of_sameLine sameLine⟩

end DcacheSystem

namespace MemStage

variable {stage : MemStage} {exeToMem : ExeToMem} {input : MemInput}

/-- A cache that is busy after a cycle has been waiting in it. -/
theorem awaitsLine_of_busy
    (busy : (stage.clock exeToMem input).dcache.state ≠ .idle) :
    stage.awaitsLine exeToMem = true := by
  by_contra idle
  apply busy
  simp only [awaitsLine, DcacheSystem.misses, Bool.not_eq_true,
    Bool.or_eq_false_iff, Bool.and_eq_false_iff, beq_eq_false_iff_ne]
    at idle
  obtain ⟨noMiss, notWaiting⟩ := idle
  change
    stage.dcache.nextState (stage.dcacheRequest exeToMem)
      stage.dmemResponse = .idle
  cases state : stage.dcache.state with
  | idle =>
      have quiet :
          ((stage.dcacheRequest exeToMem).valid &&
            !stage.dcache.hit (stage.dcacheRequest exeToMem)) = false := by
        rcases noMiss with (notIdle | silent) | hits
        · exact (notIdle state).elim
        · rw [silent, Bool.false_and]
        · change (!stage.dcache.hit _) = false at hits
          rw [hits, Bool.and_false]
      simp only [Dcache.nextState, state, quiet]
      rfl
  | miss =>
      exact (notWaiting state).elim
  | loadLine =>
      simp only [Dcache.nextState, state]

end MemStage

namespace Datapath

variable {core : Datapath} {answer : FetchAnswer} {acked : Memory}

/-- What the memory stage shows to the data cache. -/
def shownRequest (core : Datapath) : DcacheRequest :=
  core.mem.dcacheRequest core.exeToMemQ

/-- A store that the cache does not take is shown again. -/
theorem shownRequest_of_presents
    (wellFormed : core.mem.storeBuffer.WellFormed)
    (presents : core.mem.storeBuffer.rspValid = true)
    (notReady : core.mem.dcacheReady core.exeToMemQ = false) :
    (core.clock answer).mem.storeBuffer.rspValid = true ∧
      (core.clock answer).shownRequest = core.shownRequest := by
  obtain ⟨presentsNext, sameAddr, sameData⟩ :=
    StoreBuffer.rspValid_held wellFormed presents
      (show (core.storeBufferInput answer).rspReady = false from notReady)
  refine ⟨presentsNext, ?_⟩
  have before : core.mem.sbRspValid = true := presents
  have after : (core.clock answer).mem.sbRspValid = true := presentsNext
  simp only [shownRequest, MemStage.dcacheRequest, MemStage.dcacheAddr,
    before, after, if_true, Bool.or_true]
  rw [storeBuffer_clock, sameAddr, sameData]

/-- A cycle in which nothing disturbs the loads and stores:

* no index is handed out while an instruction upstream of write-back carries
  it;
* loads name words inside the array, and so do stores, unless they lie outside
  of it and the store buffer does not present them;
* the pipe of the memory drains whenever a request misses;
* while the cache waits for a line it is shown addresses of that line;
* a load that is passed on is not answered by a discarded store, and not
  without the store that is alone to its word at the head of a full store
  buffer.
-/
structure Undisturbed (core : Datapath) (answer : FetchAnswer) : Prop where
  noReuse : core.reuses answer = false
  loadsWord :
    MemStage.isLoad core.exeToMemQ = true →
    Memory.IsWord core.exeToMemQ.result
  storesPlaced :
    MemStage.isStore core.exeToMemQ = true →
    Memory.Placed core.exeToMemQ.result
  presentsWord :
    core.mem.storeBuffer.rspValid = true →
    Memory.IsWord core.mem.storeBuffer.addrOut
  drained :
    core.mem.dcacheSystem.misses core.shownRequest = true →
    core.mem.dcacheSystem.drained = true
  keepsLine :
    core.mem.awaitsLine core.exeToMemQ = true →
    Dcache.lineAligned (core.clock answer).shownRequest.addr =
      Dcache.lineAligned core.shownRequest.addr
  hidden :
    MemStage.isLoad core.exeToMemQ = true →
    core.memToWbD.valid = true →
    core.mem.storeBuffer.DiscardedHidden core.exeToMemQ.result
  shadowed :
    MemStage.isLoad core.exeToMemQ = true →
    core.memToWbD.valid = true →
    core.mem.storeBuffer.OldestShadowed core.exeToMemQ.result

namespace Undisturbed

variable (undisturbed : core.Undisturbed answer)
include undisturbed

theorem loadsSafely : core.LoadsSafely := by
  intro isLoad finishes
  exact
    ⟨undisturbed.loadsWord isLoad, undisturbed.hidden isLoad finishes,
      undisturbed.shadowed isLoad finishes⟩

/-- The stores in the store buffer go on naming words. -/
theorem namesWords_clock (words : core.mem.storeBuffer.NamesWords) :
    (core.clock answer).mem.storeBuffer.NamesWords := by
  intro slot valid
  rw [storeBuffer_clock] at valid ⊢
  change
    Memory.Placed
      (core.mem.storeBuffer.storeBufferD (core.storeBufferInput answer)
        slot).addr
  rw [StoreBuffer.storeBufferD_addr]
  by_cases filled :
      core.mem.storeBuffer.fills (core.storeBufferInput answer) slot
  · rw [if_pos filled]
    have isStore : MemStage.isStore core.exeToMemQ = true := by
      have inserts := filled.1
      simp only [StoreBuffer.inserts, Bool.and_eq_true] at inserts
      exact (Bool.and_eq_true_iff.mp inserts.1).1
    exact undisturbed.storesPlaced isStore
  · rw [if_neg filled]
    exact
      words slot
        ((StoreBuffer.storeBufferD_valid.mp valid).2.resolve_left filled)

/-- What is shown to the cache names words. -/
theorem shown_isWord (asks : core.shownRequest.valid = true) :
    Memory.IsWord core.shownRequest.addr := by
  change
    (MemStage.isLoad core.exeToMemQ || core.mem.storeBuffer.rspValid) =
      true at asks
  change
    Memory.IsWord
      (if core.mem.storeBuffer.rspValid then core.mem.storeBuffer.addrOut
        else core.exeToMemQ.result)
  cases presents : core.mem.storeBuffer.rspValid with
  | true =>
      rw [if_pos rfl]
      exact undisturbed.presentsWord presents
  | false =>
      rw [presents, Bool.or_false] at asks
      rw [if_neg Bool.false_ne_true]
      exact undisturbed.loadsWord asks

/-- The cache goes on being one flat memory. -/
theorem flat_clock
    (wellFormed : core.mem.storeBuffer.WellFormed)
    (flat : core.mem.dcacheSystem.Flat core.shownRequest acked) :
    (core.clock answer).mem.dcacheSystem.Flat
      (core.clock answer).shownRequest
      (core.mem.dcacheSystem.ackedD core.shownRequest acked) := by
  have proper := undisturbed.shown_isWord
  have onward :
      ∀ {next : DcacheRequest},
        (core.shownRequest.valid = true →
          core.mem.dcacheSystem.ready core.shownRequest = false →
          next = core.shownRequest) →
        (core.clock answer).mem.dcacheSystem.Flat next
          (core.mem.dcacheSystem.ackedD core.shownRequest acked) :=
    fun held => flat.clock held proper undisturbed.drained
  cases ready : core.mem.dcacheSystem.ready core.shownRequest with
  | true =>
      apply onward
      intro _ notReady
      rw [ready] at notReady
      cases notReady
  | false =>
      cases presents : core.mem.storeBuffer.rspValid with
      | true =>
          exact
            onward fun _ _ =>
              (shownRequest_of_presents wellFormed presents ready).2
      | false =>
          cases isLoad : MemStage.isLoad core.exeToMemQ with
          | false =>
              apply onward
              intro asks _
              change
                (MemStage.isLoad core.exeToMemQ ||
                  core.mem.storeBuffer.rspValid) = true at asks
              rw [isLoad, presents] at asks
              cases asks
          | true =>
              -- a load that waits for its line goes on waiting
              have same :
                  (core.clock answer).mem.dcacheSystem.Flat core.shownRequest
                    (core.mem.dcacheSystem.ackedD core.shownRequest acked) :=
                onward fun _ _ => rfl
              refine same.of_read presents ?_
              intro busy
              have stillBusy :
                  (core.mem.clock core.exeToMemQ
                    (core.memInput answer)).dcache.state ≠ .idle :=
                busy
              have awaits := MemStage.awaitsLine_of_busy stillBusy
              refine ⟨?_, undisturbed.keepsLine awaits⟩
              have stalls : core.stallFromMem = true := by
                have notReady : core.mem.dcacheReady core.exeToMemQ = false :=
                  ready
                simp [stallFromMem, MemStage.stall, isLoad, notReady]
              have held :
                  (core.clock answer).exeToMemQ = core.exeToMemQ :=
                exeToMemQ_of_stalls stalls
              change
                (MemStage.isLoad (core.clock answer).exeToMemQ || _) = true
              rw [held, isLoad, Bool.true_or]

end Undisturbed

/-- The cache acknowledges the store that the store buffer hands over. -/
theorem ackedD_shownRequest (core : Datapath) (acked : Memory) :
    core.mem.dcacheSystem.ackedD core.shownRequest acked =
      acked.perform
        (if core.mem.storeBuffer.rspValid &&
            core.mem.dcacheReady core.exeToMemQ then
          some (core.mem.storeBuffer.addrOut, core.mem.storeBuffer.dataWr)
        else
          none) := by
  have ready :
      core.mem.dcacheSystem.ready core.shownRequest =
        core.mem.dcacheReady core.exeToMemQ :=
    rfl
  have asks :
      (core.shownRequest.valid && core.shownRequest.we) =
        core.mem.storeBuffer.rspValid := by
    change
      ((MemStage.isLoad core.exeToMemQ || core.mem.storeBuffer.rspValid) &&
        core.mem.storeBuffer.rspValid) = _
    cases core.mem.storeBuffer.rspValid with
    | true =>
        simp
    | false =>
        simp
  rw [DcacheSystem.ackedD, asks, ready]
  by_cases takes :
      (core.mem.storeBuffer.rspValid &&
        core.mem.dcacheReady core.exeToMemQ) = true
  · have presents : core.mem.storeBuffer.rspValid = true :=
      (Bool.and_eq_true_iff.mp takes).1
    have addr : core.shownRequest.addr = core.mem.storeBuffer.addrOut := by
      change
        (if core.mem.storeBuffer.rspValid then core.mem.storeBuffer.addrOut
          else core.exeToMemQ.result) = _
      rw [presents, if_pos rfl]
    rw [if_pos takes, if_pos takes, addr]
    rfl
  · rw [if_neg takes, if_neg takes]
    rfl

/-- The cache of a core after reset is the memory behind it. -/
theorem flat_reset (core : Datapath) (request : DcacheRequest) :
    core.reset.mem.dcacheSystem.Flat request core.mem.memory where
  coherent := fun _ valid => by cases valid
  pending := .inl (DcacheSystem.pendingMemory_eq fun _ => rfl)
  phase := .inl rfl

/-- No committed store waits in the store buffer, and no write is in the pipe
of the memory. -/
structure WrittenBack (core : Datapath) : Prop where
  buffer :
    ∀ slot,
      (core.mem.storeBuffer.storeBufferQ slot).valid = true →
      (core.mem.storeBuffer.storeBufferQ slot).committed = false
  pipe :
    ∀ stage,
      ((core.mem.dmemWrapper.reqPipe stage).valid &&
        (core.mem.dmemWrapper.reqPipe stage).we) = false

namespace WrittenBack

variable {queue : List DrainItem} (writtenBack : core.WrittenBack)
include writtenBack

/-- Then the memory is what the cache shows. -/
theorem memory_eq
    (flat : core.mem.dcacheSystem.Flat core.shownRequest acked) :
    core.mem.memory = acked := by
  have arrived : core.mem.dcacheSystem.pendingMemory = core.mem.memory :=
    DcacheSystem.pendingMemory_eq writtenBack.pipe
  rcases flat.pending with same | ⟨⟨_, writes⟩, _⟩
  · exact arrived.symm.trans same
  · have presents : core.mem.storeBuffer.rspValid = true := writes
    simp only [StoreBuffer.rspValid, Bool.and_eq_true] at presents
    have waits := writtenBack.buffer _ presents.1
    change core.mem.storeBuffer.headEntry.committed = false at waits
    rw [presents.2] at waits
    cases waits

/-- And no committed store waits. -/
theorem waitingStores_eq
    (wellFormed : core.mem.storeBuffer.WellFormed)
    (represents : core.mem.storeBuffer.Represents queue) :
    StoreBuffer.waitingStores queue = [] := by
  rw [StoreBuffer.waitingStores_eq, List.map_eq_nil_iff,
    List.filter_eq_nil_iff]
  intro item member waits
  obtain ⟨position, held⟩ := List.mem_iff_getElem?.mp member
  obtain ⟨slot, isAt, within, holds⟩ := represents.slot_of_getElem? held
  have valid := (wellFormed slot).mpr (by rwa [isAt])
  have live := writtenBack.buffer slot valid
  rw [← holds.isCommitted, waits] at live
  cases live

end WrittenBack

/-- A check for cycles in which the store buffer has room and holds no
discarded store. -/
def undisturbed (core : Datapath) (answer : FetchAnswer) : Bool :=
  !core.reuses answer &&
    (!(MemStage.isLoad core.exeToMemQ || MemStage.isStore core.exeToMemQ) ||
      core.exeToMemQ.result.toNat % 4 == 0) &&
    (!MemStage.isLoad core.exeToMemQ ||
      Memory.inRange core.exeToMemQ.result) &&
    (!core.mem.storeBuffer.rspValid ||
      (core.mem.storeBuffer.addrOut.toNat % 4 == 0 &&
        Memory.inRange core.mem.storeBuffer.addrOut)) &&
    (!core.mem.dcacheSystem.misses core.shownRequest ||
      core.mem.dcacheSystem.drained) &&
    (!core.mem.awaitsLine core.exeToMemQ ||
      Dcache.lineAligned (core.clock answer).shownRequest.addr ==
        Dcache.lineAligned core.shownRequest.addr) &&
    ((List.finRange 4).all fun slot =>
      !(core.mem.storeBuffer.storeBufferQ slot).discarded) &&
    core.mem.storeBuffer.reqReady

theorem undisturbed_sound (check : core.undisturbed answer = true) :
    core.Undisturbed answer := by
  simp only [undisturbed, Bool.and_eq_true, Bool.or_eq_true,
    Bool.not_eq_true', beq_iff_eq, List.all_eq_true, List.mem_finRange,
    true_implies] at check
  obtain ⟨⟨⟨⟨⟨⟨⟨noReuse, aligned⟩, loads⟩, presents⟩, drained⟩, keepsLine⟩,
    kept⟩, room⟩ := check
  exact {
    noReuse := noReuse
    loadsWord := fun isLoad => by
      rw [isLoad] at aligned loads
      exact
        Memory.isWord_of_inRange (aligned.resolve_left Bool.noConfusion)
          (loads.resolve_left Bool.noConfusion)
    storesPlaced := fun isStore => by
      rw [isStore, Bool.or_true] at aligned
      exact
        Memory.isWord_of_inRange (aligned.resolve_left Bool.noConfusion)
    presentsWord := fun presented => by
      rw [presented] at presents
      obtain ⟨isAligned, inside⟩ := presents.resolve_left Bool.noConfusion
      exact Memory.isWord_of_inRange isAligned inside
    drained := fun misses => by
      rw [misses] at drained
      exact drained.resolve_left Bool.noConfusion
    keepsLine := fun awaits => by
      rw [awaits] at keepsLine
      exact keepsLine.resolve_left Bool.noConfusion
    hidden := fun _ _ slot _ _ discarded => by
      rw [kept slot] at discarded
      cases discarded
    shadowed := fun _ _ full => by
      rw [room] at full
      cases full
  }

end Datapath

namespace Core

variable {powerUp : Core} {horizon cycle : Nat}

/-- Nothing disturbs the loads and stores of the first cycles. -/
def StaysUndisturbed (powerUp : Core) (horizon : Nat) : Prop :=
  ∀ cycle,
    cycle < horizon →
    (powerUp.run cycle).datapath.Undisturbed (powerUp.run cycle).answer

/-- The memory of a core at power-up, which reset does not touch. -/
def ownMemory (powerUp : Core) : Memory :=
  powerUp.datapath.mem.memory

/-- The memory that the data cache shows: what it has taken so far is
performed. -/
def takenMemory (powerUp : Core) (cycle : Nat) : Memory :=
  powerUp.ownMemory.performAll
    (StoreBuffer.handedOver powerUp.storeBufferStimulus cycle)

/-- The machine that the core follows. -/
def accessed (powerUp : Core) : Nat → MemoryMachine
  | 0 => .initial powerUp.ownMemory
  | cycle + 1 =>
      (powerUp.run cycle).datapath.runsOn powerUp.ownWord
        (powerUp.accessed cycle)

theorem StaysUndisturbed.of_le
    (stays : powerUp.StaysUndisturbed horizon)
    (shorter : cycle ≤ horizon) :
    powerUp.StaysUndisturbed cycle :=
  fun earlier before => stays earlier (Nat.lt_of_lt_of_le before shorter)

section Undisturbed

variable (stays : powerUp.StaysUndisturbed cycle)
include stays

/-- What is known of the stores of such a run. -/
theorem run_kept :
    (powerUp.run cycle).datapath.StoresKept (powerUp.issued cycle) :=
  run_storesKept fun earlier before => (stays earlier before).noReuse

/-- Loads and stores stay in order. -/
theorem run_accessOrder : (powerUp.run cycle).datapath.AccessOrder := by
  induction cycle with
  | zero =>
      exact Datapath.accessOrder_reset powerUp.datapath
  | succ cycle inductionHypothesis =>
      have before := stays.of_le (Nat.le_succ cycle)
      exact
        Datapath.accessOrder_clock (run_kept before).tracked
          (stays cycle (Nat.lt_succ_self cycle)).noReuse
          (inductionHypothesis before)

/-- The stores in the store buffer name words. -/
theorem run_namesWords :
    (powerUp.run cycle).datapath.mem.storeBuffer.NamesWords := by
  induction cycle with
  | zero =>
      exact fun _ valid => by cases valid
  | succ cycle inductionHypothesis =>
      exact
        (stays cycle (Nat.lt_succ_self cycle)).namesWords_clock
          (inductionHypothesis (stays.of_le (Nat.le_succ cycle)))

/-- The store buffer follows its protocol. -/
theorem run_follows_protocol :
    ∀ earlier,
      earlier < cycle →
      (Clocked.run StoreBuffer.clock StoreBuffer.reset
          powerUp.storeBufferStimulus earlier).Follows
        (powerUp.storeBufferStimulus earlier) := by
  intro earlier before
  have kept := run_kept (stays.of_le before.le)
  rw [← run_storeBuffer]
  exact
    Datapath.follows_of_matches kept.tracked (stays earlier before).noReuse
      kept.inFlight kept.stay kept.buffers

/-- The data cache is one flat memory, which holds what it has taken. -/
theorem run_flat :
    (powerUp.run cycle).datapath.mem.dcacheSystem.Flat
      (powerUp.run cycle).datapath.shownRequest
      (powerUp.takenMemory cycle) := by
  induction cycle with
  | zero =>
      exact Datapath.flat_reset powerUp.datapath _
  | succ cycle inductionHypothesis =>
      have before := stays.of_le (Nat.le_succ cycle)
      have flat :=
        (stays cycle (Nat.lt_succ_self cycle)).flat_clock
          (run_kept before).buffers.window (inductionHypothesis before)
      have taken :
          (powerUp.run cycle).datapath.mem.dcacheSystem.ackedD
              (powerUp.run cycle).datapath.shownRequest
              (powerUp.takenMemory cycle) =
            powerUp.takenMemory (cycle + 1) := by
        rw [Datapath.ackedD_shownRequest]
        simp only [takenMemory, StoreBuffer.handedOver,
          Clocked.collect_succ, Memory.performAll_toList,
          ← run_storeBuffer]
        rfl
      rw [taken] at flat
      exact flat

/-- What was taken and what still waits was committed. -/
theorem performAll_waiting :
    (powerUp.takenMemory cycle).performAll
        (StoreBuffer.waitingStores
          (StoreBuffer.drain powerUp.storeBufferStimulus cycle)) =
      powerUp.ownMemory.performAll
        (StoreBuffer.committedStores powerUp.storeBufferStimulus cycle) := by
  rw [takenMemory, ← Memory.performAll_append]
  exact
    congrArg powerUp.ownMemory.performAll
      (StoreBuffer.handedOver_append_waiting (run_follows_protocol stays))

end Undisturbed

/-- A silent cycle commits no store. -/
theorem storeToMem_of_silent
    {core : Datapath}
    (silent : core.commit.valid = false) :
    core.commit.storeToMem = false := by
  have noCommit : core.rob.commitValid = false :=
    Rob.commit_valid.symm.trans silent
  simp only [Datapath.commit, Rob.commit, noCommit]
  rfl

/-- The memory of the machine is the committed stores, performed. -/
theorem accessed_memory_succ
    (follows :
      (powerUp.run cycle).datapath.FollowsAccesses powerUp.ownWord
        (powerUp.accessed cycle))
    (before :
      (powerUp.accessed cycle).memory =
        powerUp.ownMemory.performAll
          (StoreBuffer.committedStores powerUp.storeBufferStimulus cycle)) :
    (powerUp.accessed (cycle + 1)).memory =
      powerUp.ownMemory.performAll
        (StoreBuffer.committedStores powerUp.storeBufferStimulus
          (cycle + 1)) := by
  have next :
      (powerUp.accessed (cycle + 1)).memory =
        (powerUp.accessed cycle).memory.perform
          (if (powerUp.run cycle).datapath.commit.storeToMem then
            some
              (((powerUp.run cycle).datapath.mem.storeBuffer.storeBufferQ
                  (powerUp.run cycle).datapath.commit.storeBufferIdx).addr,
                ((powerUp.run cycle).datapath.mem.storeBuffer.storeBufferQ
                  (powerUp.run cycle).datapath.commit.storeBufferIdx).data)
          else
            none) := by
    rw [accessed]
    cases commits : (powerUp.run cycle).datapath.commit.valid with
    | true =>
        rw [Datapath.runsOn_of_commit commits,
          ← follows.store_of_commit commits]
        rfl
    | false =>
        rw [Datapath.runsOn_of_silent commits, storeToMem_of_silent commits]
        rfl
  rw [next, before, StoreBuffer.committedStores, Clocked.collect_succ,
    Memory.performAll_toList, ← run_storeBuffer]
  rfl

section Executed

variable (program : AccessProgram powerUp.ownWord)
  (fetches : powerUp.FetchesProgram powerUp.ownMemory horizon)
  (stays : powerUp.StaysUndisturbed horizon)
include program fetches stays

/-- The core follows the machine with a memory, and the machine's memory is
what the committed stores leave. -/
theorem run_accesses (within : cycle ≤ horizon) :
    (powerUp.run cycle).datapath.FollowsAccesses powerUp.ownWord
        (powerUp.accessed cycle) ∧
      (powerUp.accessed cycle).memory =
        powerUp.ownMemory.performAll
          (StoreBuffer.committedStores powerUp.storeBufferStimulus
            cycle) := by
  induction cycle with
  | zero =>
      exact
        ⟨Datapath.followsAccesses_reset powerUp.datapath powerUp.ownWord
          powerUp.ownMemory, rfl⟩
  | succ cycle inductionHypothesis =>
      obtain ⟨follows, committed⟩ :=
        inductionHypothesis (Nat.le_of_succ_le within)
      refine ⟨?_, accessed_memory_succ follows committed⟩
      have before : powerUp.StaysUndisturbed cycle :=
        stays.of_le (Nat.le_of_succ_le within)
      have undisturbed := stays cycle within
      have kept := run_kept before
      have represents :=
        StoreBuffer.run_represents (run_follows_protocol before)
      rw [← run_storeBuffer] at represents
      have stocked :
          (powerUp.run cycle).datapath.Stocked (powerUp.accessed cycle)
            (StoreBuffer.drain powerUp.storeBufferStimulus cycle)
            (powerUp.takenMemory cycle) :=
        { represents := represents
          ordered := DrainQueue.history_ordered _ cycle
          words := run_namesWords before
          committed := committed.trans (performAll_waiting before).symm
          flat := run_flat before }
      have answers :=
        Datapath.answersLoads_of_stocked follows kept.tracked
          (run_accessOrder before) kept.buffers stocked
          undisturbed.loadsSafely
      have shows :
          (powerUp.run cycle).answer.valid = true →
            (powerUp.run cycle).answer.instr =
              powerUp.ownWord (powerUp.run cycle).datapath.pcQ := by
        intro answered
        have served := serves_program fetches cycle within answered
        rwa [powerUp.run_datapath_eq] at served
      exact
        follows.clock kept.tracked undisturbed.noReuse program answers
          kept.inFlight kept.buffers shows

/-- The commits are the beginning of the execution, and the machine that the
core follows is the one after these instructions. -/
theorem commits_and_accessed :
    (powerUp.commits horizon).map RobCommit.architectural =
        MemoryMachine.execution powerUp.ownWord powerUp.ownMemory
          (powerUp.commits horizon).length ∧
      powerUp.accessed horizon =
        (MemoryMachine.initial powerUp.ownMemory).after powerUp.ownWord
          (powerUp.commits horizon).length := by
  have events :
      (powerUp.commits horizon).map RobCommit.architectural =
        Clocked.collect
          (fun cycle =>
            if (powerUp.run cycle).datapath.commit.valid then
              some ((powerUp.accessed cycle).commit powerUp.ownWord)
            else
              none) horizon := by
    rw [commits, Clocked.map_collect]
    apply Clocked.collect_congr
    intro cycle before
    split
    · rename_i valid
      exact
        congrArg some
          ((run_accesses program fetches stays before.le).1.commit_eq valid)
    · rfl
  have length := congrArg List.length events
  rw [List.length_map] at length
  rw [events, length]
  apply Clocked.collect_eq_trace powerUp.accessed
  · intro cycle event _ emits
    split at emits
    · exact (Option.some.inj emits).symm
    · cases emits
  · intro cycle event _ emits
    split at emits
    · rename_i valid
      exact Datapath.runsOn_of_commit valid
    · cases emits
  · intro cycle _ silent
    split at silent
    · cases silent
    · rename_i noCommit
      exact Datapath.runsOn_of_silent (Bool.not_eq_true _ ▸ noCommit)

/-- Whenever everything is written back, the memory is that of the machine. -/
theorem memory_of_writtenBack
    (writtenBack : (powerUp.run horizon).datapath.WrittenBack) :
    (powerUp.run horizon).datapath.mem.memory =
      (powerUp.accessed horizon).memory := by
  obtain ⟨_, committed⟩ :=
    run_accesses program fetches stays (Nat.le_refl horizon)
  have represents :=
    StoreBuffer.run_represents (run_follows_protocol stays)
  rw [← run_storeBuffer] at represents
  have taken := writtenBack.memory_eq (run_flat stays)
  have nothingWaits :
      StoreBuffer.waitingStores
          (StoreBuffer.drain powerUp.storeBufferStimulus horizon) =
        [] :=
    writtenBack.waitingStores_eq (run_kept stays).buffers.window represents
  rw [taken, committed, ← performAll_waiting stays, nothingWaits]
  rfl

/--
A memory no word of which names the last register, words of data included, is
executed as a program, loads and stores included, from every power-up state and
with the caches, the store buffer and the memory as they are, as long as it
does not change itself and nothing disturbs its loads and stores.

* The commits are the beginning of the execution of the machine with a memory.
* The register file holds what the machine holds after them, the last register
  apart.
* Whenever everything is written back, the memory is that of the machine.
-/
theorem accesses_executed :
    (powerUp.commits horizon).map RobCommit.architectural =
        MemoryMachine.execution powerUp.ownWord powerUp.ownMemory
          (powerUp.commits horizon).length ∧
      (∀ register,
        register ≠ 31 →
        (powerUp.run horizon).datapath.regfile register =
          ((MemoryMachine.initial powerUp.ownMemory).after powerUp.ownWord
            (powerUp.commits horizon).length).registers register) ∧
      ((powerUp.run horizon).datapath.WrittenBack →
        (powerUp.run horizon).datapath.mem.memory =
          ((MemoryMachine.initial powerUp.ownMemory).after powerUp.ownWord
            (powerUp.commits horizon).length).memory) := by
  obtain ⟨executed, reached⟩ := commits_and_accessed program fetches stays
  obtain ⟨follows, _⟩ :=
    run_accesses program fetches stays (Nat.le_refl horizon)
  rw [← reached]
  exact
    ⟨executed, fun _ notLast => follows.registers _ notLast,
      memory_of_writtenBack program fetches stays⟩

end Executed

/-- A loop that doubles a word of the memory. -/
def doubling : List Bus32 :=
  [ 0x00300093, -- addi x1, x0, 3
    0x20102023, -- sw x1, 512(x0)
    0x20002103, -- lw x2, 512(x0)
    0x002100b3, -- add x1, x2, x2
    0xff5ff06f ] -- jal x0, -12

/-- The first 60 cycles of the loop are undisturbed. -/
theorem doubling_undisturbed :
    AccessProgram (withProgram doubling).ownWord ∧
      (withProgram doubling).FetchesProgram
        (withProgram doubling).ownMemory 60 ∧
      (withProgram doubling).StaysUndisturbed 60 := by
  have passed :
      Strict.always Core.clock
        (fun core =>
          readsProgram (Memory.holding doubling) core &&
            core.datapath.undisturbed core.answer) 60
        (withProgram doubling).reset = true := by
    decide +kernel
  have onProgram :
      doubling.all (fun word => decide (AccessWord word)) = true := by
    decide +kernel
  have program : AccessProgram (withProgram doubling).ownWord :=
    programWord_holding AccessWord
      (fun word member =>
        of_decide_eq_true (List.all_eq_true.mp onProgram word member))
      (by decide +kernel) (by decide +kernel)
  have checks :
      ∀ cycle,
        cycle < 60 →
        readsProgram (Memory.holding doubling)
              ((withProgram doubling).run cycle) =
            true ∧
          ((withProgram doubling).run cycle).datapath.undisturbed
              ((withProgram doubling).run cycle).answer =
            true := by
    intro cycle before
    have check := check_run passed before.le
    rwa [Bool.and_eq_true] at check
  exact
    ⟨program,
      fetchesProgram_of_reads fun cycle before => (checks cycle before).1,
      fun cycle before => Datapath.undisturbed_sound (checks cycle before).2⟩

/-- The first 60 cycles execute the loop. -/
theorem accesses_executed_doubling :
    ((withProgram doubling).commits 60).map RobCommit.architectural =
        MemoryMachine.execution (withProgram doubling).ownWord
          (withProgram doubling).ownMemory
          ((withProgram doubling).commits 60).length ∧
      (∀ register,
        register ≠ 31 →
        ((withProgram doubling).run 60).datapath.regfile register =
          ((MemoryMachine.initial (withProgram doubling).ownMemory).after
            (withProgram doubling).ownWord
            ((withProgram doubling).commits 60).length).registers
            register) ∧
      (((withProgram doubling).run 60).datapath.WrittenBack →
        ((withProgram doubling).run 60).datapath.mem.memory =
          ((MemoryMachine.initial (withProgram doubling).ownMemory).after
            (withProgram doubling).ownWord
            ((withProgram doubling).commits 60).length).memory) := by
  obtain ⟨program, fetches, stays⟩ := doubling_undisturbed
  exact accesses_executed program fetches stays

end Core

end Tartaruga
