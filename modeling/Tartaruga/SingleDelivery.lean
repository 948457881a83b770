import Tartaruga.LiveCarriers

namespace Tartaruga

/-!
# How often an instruction is written back

Between its allocation and the next one of the same index an instruction is to
reach write-back once.  A clock edge copies it to one register and lets the
original go, except in two situations in which the memory stage stalls: a load
that the store buffer answers while the cache does not is delivered and held,
and a multiplication that is held in front of execute enters it again and
again.
-/

namespace Datapath

variable {core : Datapath} {answer : FetchAnswer} {instr : InstrData}
  {place : Place}

/-- A load that the store buffer answers waits for the cache all the same. -/
def bypassedLoadStalls (core : Datapath) : Bool :=
  MemStage.isLoad core.exeToMemQ &&
    core.mem.bypassFromSb core.exeToMemQ &&
    !core.mem.dcacheReady core.exeToMemQ

/-- A multiplication waits in front of execute for the memory stage. -/
def mulHeld (core : Datapath) : Bool :=
  core.stallFromMem && core.decodeToExeQ.valid &&
    core.decodeToExeQ.instr.isMul

/-- The clock edge copies an instruction and keeps the original. -/
def keepsCopy (core : Datapath) : Bool :=
  core.bypassedLoadStalls || core.mulHeld

/-- A stage that stalls and delivers nevertheless holds a bypassed load. -/
theorem bypassedLoadStalls_of_finish
    (shape : core.exeToMemQ.instr.Shape)
    (stalls : core.stallFromMem = true)
    (finishes : core.memToWbD.valid = true) :
    core.bypassedLoadStalls = true := by
  have valid := valid_of_memToWbD finishes
  simp only [stallFromMem, MemStage.stall, Bool.or_eq_true,
    Bool.and_eq_true, Bool.not_eq_true'] at stalls
  simp only [memToWbD, MemStage.memToWbD, MemStage.validNoMem,
    MemStage.validLoadBypass, MemStage.validLoadDcache, MemStage.validStore,
    Bool.or_eq_true, Bool.and_eq_true, Bool.not_eq_true', beq_iff_eq,
    beq_eq_false_iff_ne] at finishes
  rcases stalls with (⟨isLoad, notReady⟩ | collides) | ⟨isStore, noRoom⟩
  · have origin := isLoad
    simp only [MemStage.isLoad, Bool.and_eq_true, beq_iff_eq] at origin
    have noStore := (shape.ofLoad origin.1).1
    rcases finishes with (noMem | bypassed | answered) | stored
    · exact (noMem.1.2 origin.1).elim
    · simp [bypassedLoadStalls, isLoad, notReady, bypassed.2]
    · rw [notReady] at answered
      cases answered.1.1.2
    · rw [noStore] at stored
      cases stored.1.2
  · have parts := collides
    simp only [MemStage.isCollision, MemStage.isLoad, Bool.and_eq_true,
      Bool.not_eq_true', beq_iff_eq] at parts
    have noStore := (shape.ofLoad parts.1.1.1).1
    rcases finishes with (noMem | bypassed | answered) | stored
    · exact (noMem.1.2 parts.1.1.1).elim
    · rw [parts.2] at bypassed
      cases bypassed.2
    · rw [collides] at answered
      cases answered.2
    · rw [noStore] at stored
      cases stored.1.2
  · simp only [MemStage.isStore, Bool.and_eq_true] at isStore
    have noLoad := (shape.ofStore isStore.1).1
    rcases finishes with (noMem | bypassed | answered) | stored
    · rw [isStore.1] at noMem
      cases noMem.2
    · rw [noLoad] at bypassed
      cases bypassed.1.2
    · rw [noLoad] at answered
      cases answered.1.1.1.2
    · rw [noRoom] at stored
      cases stored.2

/-- Where the instruction in front of execute goes. -/
theorem Feeds.target_of_decodeToExe
    {target : Place}
    (notHeld : core.mulHeld = false)
    (valid : core.decodeToExeQ.valid = true)
    (shape : core.decodeToExeQ.instr.Shape)
    (feeds : core.Feeds .decodeToExe target) :
    target =
      if core.decodeToExeQ.instr.isMul then .exePipe 0
      else if core.stallFromExe || core.stallFromMem then .decodeToExe
      else .exeToMem := by
  simp only [mulHeld, valid, Bool.and_true] at notHeld
  rcases shape.stages with ⟨isMul, isMult⟩ | ⟨notMul, single⟩
  · have moves : core.stallFromMem = false := by
      simpa [isMul] using notHeld
    have free : core.stallFromExe = false := Exe.stall_mult isMult
    rw [if_pos isMul]
    cases feeds with
    | holdExe held => simp [moves, free] at held
    | enter stage entry =>
        rw [(Exe.isMul_of_entrySlot shape entry).2]
    | single _ _ entry =>
        rw [isMult] at entry
        cases entry
  · rw [notMul, if_neg Bool.false_ne_true]
    cases feeds with
    | holdExe held =>
        rw [if_pos (by simpa using held)]
    | enter stage entry =>
        have isMul := (Exe.isMul_of_entrySlot shape entry).1
        rw [notMul] at isMul
        cases isMul
    | single noMem noExe _ =>
        simp [noMem, noExe]

/-- Without such a copy, a register feeds one other register at most. -/
theorem Feeds.unique
    {source first second : Place}
    (kept : core.keepsCopy = false)
    (shaped : core.Shaped)
    (carries : core.Carries source instr)
    (toFirst : core.Feeds source first)
    (toSecond : core.Feeds source second) :
    first = second := by
  have shape := shaped source instr carries
  obtain ⟨valid, rfl⟩ := carries
  simp only [keepsCopy, Bool.or_eq_false_iff] at kept
  obtain ⟨noBypassed, notHeld⟩ := kept
  cases source with
  | decodeToExe =>
      rw [toFirst.target_of_decodeToExe notHeld valid shape,
        toSecond.target_of_decodeToExe notHeld valid shape]
  | exePipe stage =>
      have onward :
          ∀ target,
            core.Feeds (.exePipe stage) target →
            target =
              if bound : stage.val + 1 < 4 then
                .exePipe ⟨stage.val + 1, bound⟩
              else .exeToMem := by
        intro target feeds
        cases feeds with
        | advance stage =>
            have bound : stage.castSucc.val + 1 < 4 :=
              Nat.succ_lt_succ stage.isLt
            rw [dif_pos bound]
            rfl
        | leave _ => rfl
      rw [onward first toFirst, onward second toSecond]
  | exeToMem =>
      have exclusive :
          core.stallFromMem = true → core.memToWbD.valid = false := by
        intro stalls
        by_contra finishes
        have held := bypassedLoadStalls_of_finish shape stalls
          (by simpa using finishes)
        rw [noBypassed] at held
        cases held
      cases toFirst with
      | holdMem stalls =>
          cases toSecond with
          | holdMem _ => rfl
          | finish finishes =>
              rw [exclusive stalls] at finishes
              cases finishes
      | finish finishes =>
          cases toSecond with
          | holdMem stalls =>
              rw [exclusive stalls] at finishes
              cases finishes
          | finish _ => rfl
  | memToWb =>
      exact (toFirst.source_ne_memToWb rfl).elim

/-- The registers carry different instructions, all of them allocated. -/
structure Distinct (core : Datapath) : Prop where
  unique :
    ∀ {first second instr other},
      core.Carries first instr →
      core.Carries second other →
      instr.kanataId = other.kanataId →
      first = second
  numbered :
    ∀ {place instr},
      core.Carries place instr → instr.kanataId < core.nextId

/-- Nothing is carried after reset. -/
theorem distinct_reset (core : Datapath) : core.reset.Distinct where
  unique carries := (not_carries_reset core carries).elim
  numbered carries := (not_carries_reset core carries).elim

/-- What is carried after an edge has the next identifier or an earlier
one. -/
theorem carries_clock_numbered
    (numbered : core.DecodeNumbered)
    (distinct : core.Distinct)
    (carries : (core.clock answer).Carries place instr) :
    (place = .decodeToExe ∧ instr.kanataId = core.nextId ∧
        core.nextId < (core.clock answer).nextId) ∨
      instr.kanataId < core.nextId ∧
        ∃ source, core.Feeds source place ∧ core.Carries source instr := by
  rcases carries_clock carries with
    ⟨isFirst, allocated, rfl⟩ | ⟨source, feeds, before⟩
  · obtain ⟨isNext, moves⟩ := nextId_of_allocates numbered allocated
    exact .inl ⟨isFirst, isNext, moves⟩
  · exact .inr ⟨distinct.numbered before, source, feeds, before⟩

/-- An edge that keeps no copy keeps the registers distinct. -/
theorem distinct_clock
    (kept : core.keepsCopy = false)
    (shaped : core.Shaped)
    (numbered : core.DecodeNumbered)
    (distinct : core.Distinct) :
    (core.clock answer).Distinct := by
  constructor
  · intro first second instr other carriesFirst carriesSecond sameId
    rcases carries_clock_numbered numbered distinct carriesFirst with
      ⟨atDecode, isNext, _⟩ | ⟨older, source, feeds, before⟩
    · rcases carries_clock_numbered numbered distinct carriesSecond with
        ⟨atDecodeToo, _, _⟩ | ⟨olderToo, _⟩
      · rw [atDecode, atDecodeToo]
      · omega
    · rcases carries_clock_numbered numbered distinct carriesSecond with
        ⟨_, isNext, _⟩ | ⟨_, sourceToo, feedsToo, beforeToo⟩
      · omega
      · have sameSource := distinct.unique before beforeToo sameId
        subst sameSource
        exact Feeds.unique kept shaped before feeds feedsToo
  · intro place instr carries
    rcases carries_clock_numbered numbered distinct carries with
      ⟨_, isNext, moves⟩ | ⟨older, _⟩
    · rw [isNext]
      exact moves
    · exact Nat.lt_of_lt_of_le older (nextId_le_clock numbered)

/-- An instruction that has reached write-back is nowhere else, and an
instruction that is nowhere stays nowhere. -/
theorem not_carries_clock
    {id : Nat}
    (numbered : core.DecodeNumbered)
    (distinct : core.Distinct)
    (older : id < core.nextId)
    (gone :
      ∀ place instr,
        core.Carries place instr →
        instr.kanataId = id →
        place = .memToWb) :
    ∀ place instr,
      (core.clock answer).Carries place instr → instr.kanataId ≠ id := by
  intro place instr carries sameId
  rcases carries_clock_numbered numbered distinct carries with
    ⟨_, isNext, _⟩ | ⟨_, source, feeds, before⟩
  · omega
  · exact feeds.source_ne_memToWb (gone source instr before sameId)

end Datapath

namespace Core

variable {powerUp : Core}

/-- A cycle lies between the allocation of an entry and the next allocation of
the same index. -/
def Holds (powerUp : Core) (allocated cycle : Nat) : Prop :=
  allocated < cycle ∧
    ∀ later,
      allocated < later →
      later < cycle →
      (powerUp.run later).datapath.allocates (powerUp.run later).answer =
          true →
      (powerUp.run later).datapath.decoded.robIdx ≠
        (powerUp.run allocated).datapath.decoded.robIdx

/-- Up to a cycle, every allocated instruction is valid in the write-back
register in one cycle at most before its index is allocated again. -/
def WrittenBackOnce (powerUp : Core) (horizon : Nat) : Prop :=
  ∀ allocated first second,
    first ≤ horizon →
    second ≤ horizon →
    (powerUp.run allocated).datapath.allocates
        (powerUp.run allocated).answer =
      true →
    powerUp.Holds allocated first →
    powerUp.Holds allocated second →
    (powerUp.run first).datapath.Carries .memToWb
      (powerUp.run allocated).datapath.decoded →
    (powerUp.run second).datapath.Carries .memToWb
      (powerUp.run allocated).datapath.decoded →
    first = second

/-- The registers stay distinct along a run that keeps no copy. -/
theorem run_distinct
    {horizon : Nat}
    (kept :
      ∀ cycle,
        cycle < horizon →
        (powerUp.run cycle).datapath.keepsCopy = false)
    (cycle : Nat)
    (within : cycle ≤ horizon) :
    (powerUp.run cycle).datapath.Distinct := by
  induction cycle with
  | zero =>
      exact Datapath.distinct_reset _
  | succ cycle inductionHypothesis =>
      exact Datapath.distinct_clock (kept cycle within)
        (powerUp.run_shaped cycle) (powerUp.run_decodeNumbered cycle)
        (inductionHypothesis (Nat.le_of_succ_le within))

/-- What has reached write-back is not carried later. -/
theorem run_gone
    {horizon first : Nat}
    {instr : InstrData}
    (kept :
      ∀ cycle,
        cycle < horizon →
        (powerUp.run cycle).datapath.keepsCopy = false)
    (delivered : (powerUp.run first).datapath.Carries .memToWb instr)
    (distance : Nat)
    (within : first + distance < horizon) :
    ∀ place other,
      (powerUp.run (first + distance + 1)).datapath.Carries place other →
      other.kanataId ≠ instr.kanataId := by
  have distinct := run_distinct kept first (by omega)
  have older :
      ∀ distance,
        instr.kanataId < (powerUp.run (first + distance)).datapath.nextId :=
    fun distance =>
      Nat.lt_of_lt_of_le (distinct.numbered delivered)
        (powerUp.run_nextId_monotone (Nat.le_add_right first distance))
  induction distance with
  | zero =>
      exact Datapath.not_carries_clock (powerUp.run_decodeNumbered first)
        distinct (older 0)
        fun place other carries sameId =>
          distinct.unique carries delivered sameId
  | succ distance inductionHypothesis =>
      exact Datapath.not_carries_clock (powerUp.run_decodeNumbered _)
        (run_distinct kept _ (Nat.le_of_lt within)) (older (distance + 1))
        fun place other carries sameId =>
          (inductionHypothesis (Nat.lt_of_succ_lt within) place other carries
            sameId).elim

/--
In every run in which no clock edge keeps a copy of an instruction that it
passes on, every instruction is written back at most once.
-/
theorem writtenBackOnce_of_keepsNoCopy
    {horizon : Nat}
    (kept :
      ∀ cycle,
        cycle < horizon →
        (powerUp.run cycle).datapath.keepsCopy = false) :
    powerUp.WrittenBackOnce horizon := by
  intro allocated first second firstWithin secondWithin _ _ _ carriesFirst
    carriesSecond
  have ordered :
      ∀ earlier later,
        earlier < later →
        later ≤ horizon →
        (powerUp.run earlier).datapath.Carries .memToWb
          (powerUp.run allocated).datapath.decoded →
        ¬ (powerUp.run later).datapath.Carries .memToWb
          (powerUp.run allocated).datapath.decoded := by
    intro earlier later before within delivered again
    obtain ⟨distance, rfl⟩ := Nat.exists_eq_add_of_lt before
    exact run_gone kept delivered distance within _ _ again rfl
  rcases Nat.lt_trichotomy first second with before | same | after
  · exact (ordered first second before secondWithin carriesFirst
      carriesSecond).elim
  · exact same
  · exact (ordered second first after firstWithin carriesSecond
      carriesFirst).elim

/-- A multiplication between two additions. -/
def mulBetweenAdds : List Bus32 :=
  [ 0x00100093, -- addi x1, x0, 1
    0x02108133, -- mul x2, x1, x1
    0x00100193 ] -- addi x3, x0, 1

/-- Without memory accesses the first instructions are written back once. -/
theorem writtenBackOnce_mulBetweenAdds :
    (withProgram mulBetweenAdds).WrittenBackOnce 22 := by
  have passed :
      Strict.always Core.clock (fun core => !core.datapath.keepsCopy) 22
        (withProgram mulBetweenAdds).reset = true := by
    decide +kernel
  apply writtenBackOnce_of_keepsNoCopy
  intro cycle within
  simpa using check_run passed within.le

/-- An instruction that two cycles find in the write-back register, before its
index is allocated again. -/
theorem not_writtenBackOnce
    {allocated first second : Nat}
    {instr : InstrData}
    (ordered : allocated < first ∧ first < second)
    (allocates :
      (powerUp.run allocated).datapath.allocates
          (powerUp.run allocated).answer = true ∧
        (powerUp.run allocated).datapath.decoded = instr)
    (noOther :
      ∀ later,
        later ≤ second →
        (powerUp.run later).datapath.allocates
            (powerUp.run later).answer = true →
        (powerUp.run later).datapath.decoded.robIdx = instr.robIdx →
        (powerUp.run later).datapath.decoded.kanataId = instr.kanataId)
    (carriesFirst : (powerUp.run first).datapath.Carries .memToWb instr)
    (carriesSecond : (powerUp.run second).datapath.Carries .memToWb instr) :
    ¬ powerUp.WrittenBackOnce second := by
  obtain ⟨isAllocated, rfl⟩ := allocates
  have holds :
      ∀ cycle, allocated < cycle → cycle ≤ second →
        powerUp.Holds allocated cycle := by
    intro cycle after within
    refine ⟨after, ?_⟩
    intro later afterAllocated before again sameIdx
    have sameId := noOther later (by omega) again sameIdx
    have increases :=
      powerUp.allocations_increase afterAllocated isAllocated again
    omega
  intro once
  have same := once allocated first second ordered.2.le (Nat.le_refl second)
    isAllocated (holds first ordered.1 ordered.2.le)
    (holds second (by omega) (Nat.le_refl second)) carriesFirst carriesSecond
  omega

/-- Decode allocates another instruction under the index. -/
def allocatesOther (instr : InstrData) (core : Core) : Bool :=
  core.datapath.allocates core.answer &&
    core.datapath.decoded.robIdx == instr.robIdx &&
    !(core.datapath.decoded.kanataId == instr.kanataId)

/-- A run in which evaluation finds two deliveries. -/
theorem not_writtenBackOnce_of_observed
    (instr : InstrData)
    (allocated first : Nat)
    {second : Nat}
    (ordered : allocated < first ∧ first < second)
    (allocates :
      Strict.observe Core.clock
        (fun core =>
          core.datapath.allocates core.answer &&
            core.datapath.decoded == instr) allocated powerUp.reset = true)
    (noOther :
      Strict.always Core.clock (fun core => !allocatesOther instr core) second
        powerUp.reset = true)
    (atFirst :
      Strict.observe Core.clock
        (fun core => core.datapath.register .memToWb == (true, instr)) first
        powerUp.reset = true)
    (atSecond :
      Strict.observe Core.clock
        (fun core => core.datapath.register .memToWb == (true, instr)) second
        powerUp.reset = true) :
    ¬ powerUp.WrittenBackOnce second := by
  rw [← observe_run powerUp] at allocates atFirst atSecond
  simp only [Bool.and_eq_true, beq_iff_eq] at allocates atFirst atSecond
  apply not_writtenBackOnce ordered allocates
  · intro later within isAllocated sameIdx
    have notOther := check_run noOther within
    simpa [allocatesOther, isAllocated, sameIdx] using notOther
  · exact Prod.mk.inj atFirst
  · exact Prod.mk.inj atSecond

/-- A load from the address that the store in front of it writes. -/
def storeThenLoad : List Bus32 :=
  [ 0x20602023, -- sw x6, 512(x0)
    0x20002283 ] -- lw x5, 512(x0)

/-- The load is answered by the store buffer while its line is not in the
cache, and is written back again in the next cycle. -/
theorem storeThenLoad_not_writtenBackOnce :
    ¬ (withProgram storeThenLoad).WrittenBackOnce 17 :=
  not_writtenBackOnce_of_observed (decoder 4 0x20002283 1 1) 13 16
    (by decide) (by decide +kernel) (by decide +kernel)
    (by decide +kernel) (by decide +kernel)

/-- A multiplication behind a load that misses. -/
def loadThenMul : List Bus32 :=
  [ 0x20002303, -- lw x6, 512(x0)
    0x020002b3 ] -- mul x5, x0, x0

/-- The multiplication enters execute in every cycle of the miss, and is
written back again in the cycle after its first write-back. -/
theorem loadThenMul_not_writtenBackOnce :
    ¬ (withProgram loadThenMul).WrittenBackOnce 30 :=
  not_writtenBackOnce_of_observed (decoder 4 0x020002b3 1 1) 13 29
    (by decide) (by decide +kernel) (by decide +kernel)
    (by decide +kernel) (by decide +kernel)

end Core

end Tartaruga
