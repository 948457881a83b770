import Tartaruga.BufferedStores

namespace Tartaruga

/-!
# Loads and the stores before them

Loads and stores pass execute and the memory stage in program order, so a load
in front of the memory stage finds exactly the older stores of the reorder
buffer in the store buffer.
-/

namespace Datapath

variable {core : Datapath} {answer : FetchAnswer} {instr : InstrData}
  {slot before : RobIdx}

/-- Where the loads and stores of the reorder buffer are. -/
structure AccessOrder (core : Datapath) : Prop where
  newest :
    ∀ instr,
      core.Carries .decodeToExe instr →
      (core.rob.robQ instr.robIdx).valid = true →
      Ring.dist core.rob.headPtrQ instr.robIdx + 1 = core.rob.occupancy
  located :
    ∀ slot,
      (core.rob.robQ slot).valid = true →
      (core.rob.robQ slot).storeToMem = true →
      core.Buffered slot ∨ core.StoreAt .decodeToExe slot ∨
        core.StoreAt .exeToMem slot
  loads :
    ∀ instr before,
      core.Carries .exeToMem instr →
      instr.wbOrigin = .mem →
      (core.rob.robQ instr.robIdx).valid = true →
      core.Buffered before →
      Ring.dist core.rob.headPtrQ before <
        Ring.dist core.rob.headPtrQ instr.robIdx

/-- Nothing is on its way after reset. -/
theorem accessOrder_reset (core : Datapath) : core.reset.AccessOrder where
  newest _ carries := (not_carries_reset core carries).elim
  located _ valid := by cases valid
  loads _ _ carries := (not_carries_reset core carries).elim

/-- A load owns no entry of a store. -/
theorem not_store_of_load
    (tracked : core.Tracked)
    {place : Place}
    (carries : core.Carries place instr)
    (isLoad : instr.wbOrigin = .mem)
    (valid : (core.rob.robQ instr.robIdx).valid = true) :
    (core.rob.robQ instr.robIdx).storeToMem = false := by
  have own := tracked.owned place instr carries valid
  have shape := tracked.shaped place instr carries
  exact (congrArg RobOwn.storeToMem own).trans (shape.ofLoad isLoad).1

section Preservation

variable (tracked : core.Tracked) (noReuse : core.reuses answer = false)
  (order : core.AccessOrder)
include noReuse

/-- An entry that a moving instruction owns after the edge survives it. -/
theorem survives_of_feeds
    {source target : Place}
    (carries : core.Carries source instr)
    (feeds : core.Feeds source target)
    (valid : ((core.clock answer).rob.robQ instr.robIdx).valid = true) :
    core.Survives answer instr.robIdx := by
  rcases survives_or_allocated valid with survives | allocated
  · exact survives
  · exact
      (robIdx_ne_tail noReuse allocated.1 feeds.source_ne_memToWb carries
        allocated.2).elim

include tracked order

/-- The instruction behind decode is the newest one. -/
theorem AccessOrder.newest_clock
    (carries : (core.clock answer).Carries .decodeToExe instr)
    (valid : ((core.clock answer).rob.robQ instr.robIdx).valid = true) :
    Ring.dist (core.clock answer).rob.headPtrQ instr.robIdx + 1 =
      (core.clock answer).rob.occupancy := by
  rcases carries_clock carries with
    ⟨_, allocated, rfl⟩ | ⟨source, feeds, carriesBefore⟩
  · exact
      tracked.window.dist_allocated robAlloc_admits
        ⟨allocated, decoded_robIdx⟩ core.robWb
  · have survives := survives_of_feeds noReuse carriesBefore feeds valid
    cases feeds with
    | holdExe held =>
        have noAlloc : ¬ (core.robAlloc answer).validDecode = true := by
          intro allocates
          have noStall := (allocates_iff.mp allocates).1
          rcases held with fromExe | fromMem
          · rw [stall_of_stallFromExe fromExe] at noStall
            cases noStall
          · rw [stall_of_stallFromMem fromMem] at noStall
            cases noStall
        have admitted : core.rob.Admits (core.robAlloc answer) :=
          robAlloc_admits
        have counted := tracked.window.occupancy_clock admitted core.robWb
        rw [survives.1, if_neg Bool.false_ne_true, if_neg noAlloc]
          at counted
        have shift := dist_survives_clock survives
        have last := order.newest instr carriesBefore survives.2.2.2
        change
          Ring.dist (core.clock answer).rob.headPtrQ instr.robIdx + 1 =
            (core.rob.clock (core.robAlloc answer) core.robWb).occupancy
        rw [counted]
        omega

/-- A store of the reorder buffer is on its way to the store buffer, or has
arrived. -/
theorem AccessOrder.located_clock
    (valid : ((core.clock answer).rob.robQ slot).valid = true)
    (isStore : ((core.clock answer).rob.robQ slot).storeToMem = true) :
    (core.clock answer).Buffered slot ∨
      (core.clock answer).StoreAt .decodeToExe slot ∨
        (core.clock answer).StoreAt .exeToMem slot := by
  have afterwards := tracked_clock tracked noReuse
  rcases survives_or_allocated valid with survives | allocated
  · rw [survives.storeToMem_clock] at isStore
    have moves :
        ∀ {place : Place},
          place ≠ .memToWb →
          (∀ stage, place ≠ .exePipe stage) →
          core.StoreAt place slot →
          ∃ target, (core.clock answer).StoreAt target slot := by
      intro place notLast notPiped storeAt
      obtain ⟨instr, carries, stores, rfl, _⟩ := storeAt
      obtain ⟨target, onward⟩ :=
        carries_onward tracked.shaped carries notLast
          fun isPiped => (notPiped 3 isPiped).elim
      exact ⟨target, instr, onward, stores, rfl, survives.valid_clock⟩
    have settled :
        ∀ {target : Place},
          (core.clock answer).StoreAt target slot →
          (core.clock answer).Buffered slot ∨
            (core.clock answer).StoreAt .decodeToExe slot ∨
              (core.clock answer).StoreAt .exeToMem slot := by
      intro target storeAt
      cases target with
      | decodeToExe =>
          exact .inr (.inl storeAt)
      | exePipe stage =>
          exact (afterwards.not_storeAt_exePipe stage storeAt).elim
      | exeToMem =>
          exact .inr (.inr storeAt)
      | memToWb =>
          exact
            .inl ⟨valid, survives.storeToMem_clock.trans isStore,
              .inr storeAt⟩
    rcases order.located slot survives.2.2.2 isStore with
      buffered | issuing | inMemory
    · exact
        .inl ((buffered_clock tracked noReuse).mpr ⟨survives, .inl buffered⟩)
    · obtain ⟨target, onward⟩ := moves (by simp) (by simp) issuing
      exact settled onward
    · obtain ⟨target, onward⟩ := moves (by simp) (by simp) inMemory
      exact settled onward
  · right
    left
    have next : (core.clock answer).Carries .decodeToExe core.decoded := by
      have taken :
          (core.clock answer).decodeToExeQ = core.decodeToExeD answer := by
        change core.decodeToExeNext answer = core.decodeToExeD answer
        rw [decodeToExeNext, (allocates_iff.mp allocated.1).1]
        rfl
      constructor
      · exact (congrArg DecodeToExe.valid taken).trans allocated.1
      · exact congrArg DecodeToExe.instr taken
    have own := congrArg RobOwn.storeToMem (own_of_allocates allocated)
    exact
      ⟨core.decoded, next, own.symm.trans isStore,
        decoded_robIdx.trans allocated.2.symm, valid⟩

/-- A load in front of the memory stage is younger than every store that has
passed it. -/
theorem AccessOrder.loads_clock
    (carries : (core.clock answer).Carries .exeToMem instr)
    (isLoad : instr.wbOrigin = .mem)
    (valid : ((core.clock answer).rob.robQ instr.robIdx).valid = true)
    (buffered : (core.clock answer).Buffered before) :
    Ring.dist (core.clock answer).rob.headPtrQ before <
      Ring.dist (core.clock answer).rob.headPtrQ instr.robIdx := by
  obtain ⟨survivesBefore, wasBefore⟩ :=
    (buffered_clock tracked noReuse).mp buffered
  rcases carries_clock carries with
    ⟨isFirst, _, _⟩ | ⟨source, feeds, carriesBefore⟩
  · cases isFirst
  · have survives := survives_of_feeds noReuse carriesBefore feeds valid
    have shiftBefore := dist_survives_clock survivesBefore
    have shift := dist_survives_clock survives
    suffices wasOlder :
        Ring.dist core.rob.headPtrQ before <
          Ring.dist core.rob.headPtrQ instr.robIdx by
      omega
    cases feeds with
    | single _ _ _ =>
        have last := order.newest instr carriesBefore survives.2.2.2
        have inside := (tracked.window before).mp survivesBefore.2.2.2
        have different :
            Ring.dist core.rob.headPtrQ before ≠
              Ring.dist core.rob.headPtrQ instr.robIdx := by
          intro same
          obtain rfl := Ring.dist_injective same
          have noStore :=
            not_store_of_load tracked carriesBefore isLoad
              survives.2.2.2
          rw [← survives.storeToMem_clock, buffered.2.1] at noStore
          cases noStore
        omega
    | leave _ =>
        have isMul := tracked.mulPipe 3 instr carriesBefore
        have shape := tracked.shaped _ _ carriesBefore
        rw [(shape.ofMul isMul).1] at isLoad
        cases isLoad
    | holdMem stalls =>
        rcases wasBefore with wasBuffered | enters
        · exact
            order.loads instr before carriesBefore isLoad survives.2.2.2
              wasBuffered
        · rw [enters.2.2] at stalls
          cases stalls

/-- The order survives every cycle that does not hand out an index in use. -/
theorem accessOrder_clock : (core.clock answer).AccessOrder where
  newest _ carries valid :=
    order.newest_clock tracked noReuse carries valid
  located _ valid isStore :=
    order.located_clock tracked noReuse valid isStore
  loads _ _ carries isLoad valid buffered :=
    order.loads_clock tracked noReuse carries isLoad valid buffered

end Preservation

/-- The stores that have passed the memory stage are those before the load. -/
theorem AccessOrder.buffered_iff
    (tracked : core.Tracked)
    (order : core.AccessOrder)
    (carries : core.Carries .exeToMem instr)
    (isLoad : instr.wbOrigin = .mem)
    (valid : (core.rob.robQ instr.robIdx).valid = true) :
    core.Buffered slot ↔
      (core.rob.robQ slot).valid = true ∧
        (core.rob.robQ slot).storeToMem = true ∧
          Ring.dist core.rob.headPtrQ slot <
            Ring.dist core.rob.headPtrQ instr.robIdx := by
  constructor
  · intro buffered
    exact
      ⟨buffered.1, buffered.2.1,
        order.loads instr slot carries isLoad valid buffered⟩
  · rintro ⟨inUse, isStore, older⟩
    rcases order.located slot inUse isStore with
      buffered | issuing | inMemory
    · exact buffered
    · obtain ⟨other, carriesOther, _, rfl, _⟩ := issuing
      have last := order.newest other carriesOther inUse
      have inside := (tracked.window instr.robIdx).mp valid
      omega
    · obtain ⟨other, carriesOther, _, rfl, _⟩ := inMemory
      have same : other = instr := carriesOther.2.symm.trans carries.2
      rw [same] at older
      exact (Nat.lt_irrefl _ older).elim

end Datapath

end Tartaruga
