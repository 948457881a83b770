import Tartaruga.AccessRefinement
import Tartaruga.BufferedMemory
import Tartaruga.DataCacheFlat
import Tartaruga.MissStability

namespace Tartaruga

/-!
# What a load gets

A load that the memory stage passes on is answered by the store buffer or by
the data cache.  The youngest older store to its word is in the store buffer,
committed or not, or it has been taken by the cache: in each case the load gets
what the machine reads.
-/

namespace Datapath

variable {core : Datapath} {instr : InstrData} {word : Bus32 → Bus32}
  {machine : MemoryMachine} {addr : Bus32} {slot : StoreBufferIdx}
  {queue : List DrainItem} {acked : Memory}

/-- The load in front of the memory stage takes a slot of the store buffer. -/
theorem wbResult_of_bypass
    (carries : core.Carries .exeToMem instr)
    (isLoad : instr.wbOrigin = .mem)
    (found :
      core.mem.storeBuffer.bypassSlot core.exeToMemQ.result = some slot) :
    core.mem.wbResult core.exeToMemQ =
      (core.mem.storeBuffer.storeBufferQ slot).data := by
  obtain ⟨valid, rfl⟩ := carries
  change core.exeToMemQ.valid = true at valid
  change core.exeToMemQ.instr.wbOrigin = .mem at isLoad
  have bypassed : core.mem.validLoadBypass core.exeToMemQ = true := by
    simp [MemStage.validLoadBypass, MemStage.bypassFromSb,
      StoreBuffer.bypass, valid, isLoad, found]
  simp only [MemStage.wbResult, isLoad, bypassed, if_true,
    StoreBuffer.dataRd, found]

/-- A load that is passed on without the store buffer is acknowledged by the
cache. -/
theorem wbResult_of_dcache
    (shape : instr.Shape)
    (carries : core.Carries .exeToMem instr)
    (isLoad : instr.wbOrigin = .mem)
    (finishes : core.memToWbD.valid = true)
    (noSlot :
      core.mem.storeBuffer.bypassSlot core.exeToMemQ.result = none)
    (isWord : Memory.IsWord core.exeToMemQ.result)
    (flat :
      core.mem.dcacheSystem.Flat (core.mem.dcacheRequest core.exeToMemQ)
        acked) :
    core.mem.wbResult core.exeToMemQ =
      acked.readMem core.exeToMemQ.result := by
  have noStore := (shape.ofLoad isLoad).1
  obtain ⟨valid, rfl⟩ := carries
  change core.exeToMemQ.valid = true at valid
  change core.exeToMemQ.instr.wbOrigin = .mem at isLoad
  change core.exeToMemQ.instr.storeToMem = false at noStore
  have notBypassed : core.mem.bypassFromSb core.exeToMemQ = false := by
    simp [MemStage.bypassFromSb, StoreBuffer.bypass, noSlot]
  have loads : MemStage.isLoad core.exeToMemQ = true := by
    simp [MemStage.isLoad, isLoad, valid]
  have answered : core.mem.validLoadDcache core.exeToMemQ = true := by
    simpa [memToWbD, MemStage.memToWbD, MemStage.validNoMem, isLoad,
      MemStage.validLoadBypass, MemStage.validStore, noStore, notBypassed]
      using finishes
  simp only [MemStage.validLoadDcache, valid, isLoad, notBypassed,
    MemStage.isCollision, loads, beq_self_eq_true, Bool.true_and,
    Bool.not_false, Bool.and_true, Bool.and_eq_true, Bool.not_eq_true']
    at answered
  obtain ⟨ready, noStoreShown⟩ := answered
  have request :
      core.mem.dcacheRequest core.exeToMemQ =
        { addr := core.exeToMemQ.result
          dataWr := core.mem.storeBuffer.dataWr
          we := false
          valid := true } := by
    simp [MemStage.dcacheRequest, MemStage.dcacheAddr, noStoreShown, loads]
  have acknowledged :
      core.mem.dcacheSystem.ready (core.mem.dcacheRequest core.exeToMemQ) =
        true :=
    ready
  have taken :
      core.mem.dcache.dataRd (core.mem.dcacheRequest core.exeToMemQ) =
        acked.readMem core.exeToMemQ.result := by
    rw [request] at flat acknowledged ⊢
    exact flat.dataRd isWord rfl rfl acknowledged
  simpa [MemStage.wbResult, isLoad, MemStage.validLoadBypass, notBypassed]
    using taken

/-- What is known of the stores and the memory in front of a load. -/
structure Stocked
    (core : Datapath)
    (machine : MemoryMachine)
    (queue : List DrainItem)
    (acked : Memory) :
    Prop where
  represents : core.mem.storeBuffer.Represents queue
  ordered : DrainQueue.Ordered queue
  words : core.mem.storeBuffer.NamesWords
  committed :
    machine.memory =
      acked.performAll (StoreBuffer.waitingStores queue)
  flat :
    core.mem.dcacheSystem.Flat (core.mem.dcacheRequest core.exeToMemQ) acked

section Load

variable (follows : core.FollowsAccesses word machine)
  (tracked : core.Tracked) (order : core.AccessOrder)
  (buffers : core.Matches)
  (words : core.mem.storeBuffer.NamesWords)
  (isWord : Memory.IsWord addr)
include follows tracked order buffers words isWord

/-- The stores of the machine in front of a load that meet a word are the
buffered ones to its address. -/
theorem overwrites_iff
    {index : Nat}
    (carries : core.Carries .exeToMem instr)
    (isLoad : instr.wbOrigin = .mem)
    (valid : (core.rob.robQ instr.robIdx).valid = true)
    (reached : core.StraightTo word machine instr.robIdx)
    (before : index < Ring.dist core.rob.headPtrQ instr.robIdx) :
    (machine.after word index).Overwrites word addr ↔
      ∃ owner,
        core.Buffered owner ∧
          Ring.dist core.rob.headPtrQ owner = index ∧
          core.mem.storeBuffer.matchesAt addr (core.bufferSlot owner) =
            true := by
  have named :
      ∀ {owner},
        core.Buffered owner →
        core.StraightTo word machine owner →
        ((core.standing word machine owner).Overwrites word addr ↔
          core.mem.storeBuffer.matchesAt addr (core.bufferSlot owner) =
            true) := by
    intro owner buffered reachedOwner
    have stored := follows.stores owner buffered reachedOwner
    have isLive := buffers.live owner buffered
    simp only [StoreBuffer.liveAt, Bool.and_eq_true] at isLive
    have inUse := isLive.1.1
    have meets :
        Memory.Meets
            ((core.mem.storeBuffer.storeBufferQ (core.bufferSlot owner)).addr,
              (core.mem.storeBuffer.storeBufferQ
                (core.bufferSlot owner)).data) addr ↔
          (core.mem.storeBuffer.storeBufferQ (core.bufferSlot owner)).addr =
            addr :=
      Memory.meets_iff isWord (words _ inUse)
    simp only [MemoryMachine.Overwrites, stored, Option.some.injEq,
      exists_eq_left', meets, StoreBuffer.matchesAt, inUse, Bool.true_and,
      beq_iff_eq]
  have inside := (tracked.window instr.robIdx).mp valid
  constructor
  · intro overwrites
    obtain ⟨owner, isAt, inUse⟩ :=
      FollowsAccesses.exists_slot tracked (Nat.lt_trans before inside)
    have reachedOwner : core.StraightTo word machine owner := by
      rw [StraightTo, isAt]
      exact MemoryMachine.Straight.of_le reached before.le
    have atOwner :
        core.standing word machine owner = machine.after word index := by
      rw [standing, isAt]
    have isStore : (core.rob.robQ owner).storeToMem = true := by
      rw [follows.storeToMem_eq inUse reachedOwner, atOwner]
      obtain ⟨store, stored, _⟩ := overwrites
      rw [MemoryMachine.stored] at stored
      split at stored
      · assumption
      · cases stored
    have buffered : core.Buffered owner :=
      (order.buffered_iff tracked carries isLoad valid).mpr
        ⟨inUse, isStore, isAt ▸ before⟩
    rw [← atOwner] at overwrites
    exact
      ⟨owner, buffered, isAt, (named buffered reachedOwner).mp overwrites⟩
  · rintro ⟨owner, buffered, rfl, isMatch⟩
    have reachedOwner : core.StraightTo word machine owner :=
      MemoryMachine.Straight.of_le reached before.le
    exact (named buffered reachedOwner).mpr isMatch

/-- If no store in the store buffer that is still live names the word, the
machine reads it as it is at the head. -/
theorem readMem_of_silent
    (carries : core.Carries .exeToMem instr)
    (isLoad : instr.wbOrigin = .mem)
    (valid : (core.rob.robQ instr.robIdx).valid = true)
    (reached : core.StraightTo word machine instr.robIdx)
    (silent :
      ∀ slot,
        core.mem.storeBuffer.liveAt slot = true →
        core.mem.storeBuffer.matchesAt addr slot = false) :
    (core.standing word machine instr.robIdx).memory.readMem addr =
      machine.memory.readMem addr := by
  have noStore :
      ∀ index,
        0 ≤ index →
        index < 0 + Ring.dist core.rob.headPtrQ instr.robIdx →
        ¬ (machine.after word index).Overwrites word addr := by
    intro index _ before overwrites
    rw [Nat.zero_add] at before
    obtain ⟨owner, buffered, _, isMatch⟩ :=
      (overwrites_iff follows tracked order buffers words isWord carries
        isLoad valid reached before).mp overwrites
    rw [silent _ (buffers.live owner buffered)] at isMatch
    cases isMatch
  have kept :
      (machine.after word
          (0 + Ring.dist core.rob.headPtrQ instr.robIdx)).memory.readMem
            addr =
        machine.memory.readMem addr :=
    (MemoryMachine.wordCell word isWord).look_of_silent noStore
  rwa [Nat.zero_add] at kept

/-- The youngest live store to the word is what the machine reads. -/
theorem readMem_of_live
    (carries : core.Carries .exeToMem instr)
    (isLoad : instr.wbOrigin = .mem)
    (valid : (core.rob.robQ instr.robIdx).valid = true)
    (reached : core.StraightTo word machine instr.robIdx)
    (isLive : core.mem.storeBuffer.liveAt slot = true)
    (found : core.mem.storeBuffer.bypassSlot addr = some slot) :
    (core.standing word machine instr.robIdx).memory.readMem addr =
      (core.mem.storeBuffer.storeBufferQ slot).data := by
  obtain ⟨_, isMatch, youngest⟩ := StoreBuffer.bypassSlot_eq_some.mp found
  obtain ⟨owner, buffered, rfl⟩ := buffers.owner slot isLive
  have before := order.loads instr owner carries isLoad valid buffered
  have writes :
      (core.standing word machine owner).Overwrites word addr :=
    (overwrites_iff follows tracked order buffers words isWord carries isLoad
      valid reached before).mpr ⟨owner, buffered, rfl, isMatch⟩
  have last :
      ∀ later,
        Ring.dist core.rob.headPtrQ owner < later →
        later < Ring.dist core.rob.headPtrQ instr.robIdx →
        ¬ (machine.after word later).Overwrites word addr := by
    intro later behind within overwrites
    obtain ⟨other, bufferedOther, rfl, isOther⟩ :=
      (overwrites_iff follows tracked order buffers words isWord carries
        isLoad valid reached within).mp overwrites
    have further :=
      buffers.ordered owner other buffered bufferedOther behind
    have younger :
        core.mem.storeBuffer.youngerThan (core.bufferSlot owner)
          (core.bufferSlot other) :=
      buffers.window.youngerThan (StoreBuffer.valid_of_matchesAt isMatch)
        (StoreBuffer.valid_of_matchesAt isOther) further
    rw [youngest _ younger] at isOther
    cases isOther
  have written :
      (core.standing word machine instr.robIdx).memory.readMem addr =
        ((core.standing word machine owner).front.input word).dataRs2 :=
    (MemoryMachine.wordCell word isWord).look_of_last writes before last
  have reachedOwner : core.StraightTo word machine owner :=
    MemoryMachine.Straight.of_le reached before.le
  have stored := follows.stores owner buffered reachedOwner
  rw [written]
  rw [MemoryMachine.stored] at stored
  split at stored
  · exact congrArg Prod.snd (Option.some.inj stored)
  · cases stored

end Load

/-- A load that is passed on names a word, the discarded stores to it are
hidden, and if the store buffer is full, its oldest store is not the only one
to that word. -/
def LoadsSafely (core : Datapath) : Prop :=
  MemStage.isLoad core.exeToMemQ = true →
  core.memToWbD.valid = true →
  Memory.IsWord core.exeToMemQ.result ∧
    core.mem.storeBuffer.DiscardedHidden core.exeToMemQ.result ∧
    core.mem.storeBuffer.OldestShadowed core.exeToMemQ.result

/-- A load that is passed on safely gets what the machine reads. -/
theorem answersLoads_of_stocked
    (follows : core.FollowsAccesses word machine)
    (tracked : core.Tracked)
    (order : core.AccessOrder)
    (buffers : core.Matches)
    (stocked : core.Stocked machine queue acked)
    (safely : core.LoadsSafely) :
    core.AnswersLoads word machine := by
  intro instr carries valid reached isLoad finishes
  have loads : MemStage.isLoad core.exeToMemQ = true := by
    obtain ⟨carried, rfl⟩ := carries
    change core.exeToMemQ.valid = true at carried
    change core.exeToMemQ.instr.wbOrigin = .mem at isLoad
    simp [MemStage.isLoad, isLoad, carried]
  obtain ⟨isWord, hidden, shadowed⟩ := safely loads finishes
  have words := stocked.words
  have silent :=
    readMem_of_silent follows tracked order buffers words isWord carries
      isLoad valid reached
  cases found :
      core.mem.storeBuffer.bypassSlot core.exeToMemQ.result with
  | none =>
      have nowhere :
          ∀ slot,
            core.mem.storeBuffer.matchesAt core.exeToMemQ.result slot =
              false := by
        intro slot
        by_contra isMatch
        obtain ⟨other, isFound⟩ :=
          StoreBuffer.exists_bypassSlot buffers.window shadowed
            (Bool.not_eq_false _ ▸ isMatch)
        rw [found] at isFound
        cases isFound
      rw [silent fun slot _ => nowhere slot, stocked.committed,
        StoreBuffer.readMem_waiting_of_none buffers.window
          stocked.represents words isWord nowhere]
      exact
        wbResult_of_dcache (tracked.shaped _ _ carries) carries isLoad
          finishes found isWord stocked.flat
  | some slot =>
      rw [wbResult_of_bypass carries isLoad found]
      obtain ⟨_, isMatch, youngest⟩ :=
        StoreBuffer.bypassSlot_eq_some.mp found
      have inUse := StoreBuffer.valid_of_matchesAt isMatch
      cases committed :
          (core.mem.storeBuffer.storeBufferQ slot).committed with
      | true =>
          have noLive :
              ∀ other,
                core.mem.storeBuffer.liveAt other = true →
                core.mem.storeBuffer.matchesAt core.exeToMemQ.result other =
                  false := by
            intro other isLive
            have validOther :
                (core.mem.storeBuffer.storeBufferQ other).valid = true := by
              simp only [StoreBuffer.liveAt, Bool.and_eq_true] at isLive
              exact isLive.1.1
            exact
              youngest other
                (buffers.window.youngerThan inUse validOther
                  (stocked.represents.committed_before_live buffers.window
                    stocked.ordered inUse committed isLive))
          rw [silent noLive, stocked.committed,
            StoreBuffer.readMem_waiting_of_found buffers.window
              stocked.represents words isWord found committed]
      | false =>
          have kept := StoreBuffer.not_discarded_of_hidden hidden found
          have isLive : core.mem.storeBuffer.liveAt slot = true := by
            simp [StoreBuffer.liveAt, inUse, committed, kept]
          exact
            (readMem_of_live follows tracked order buffers words isWord
              carries isLoad valid reached isLive found).symm

end Datapath

end Tartaruga
