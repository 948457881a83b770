import Tartaruga.CoreEvaluation
import Tartaruga.DataCacheMiss
import Tartaruga.StoreBufferDrain

namespace Tartaruga

/-!
# The request of a miss

The data cache does not latch the address that it is shown.  While it fetches
a line, the memory stage goes on showing the request that missed, unless a
store becomes ready at the head of the store buffer while a load waits; then
the line is installed under the address of the store.
-/

namespace MemStage

variable {stage : MemStage} {exeToMem : ExeToMem} {input : MemInput}

/-- The data cache of the stage with its memory. -/
def dcacheSystem (stage : MemStage) : DcacheSystem where
  dcache := stage.dcache
  dmemWrapper := stage.dmemWrapper
  memory := stage.memory

/-- It is clocked under the request that the stage shows. -/
theorem dcacheSystem_clock :
    (stage.clock exeToMem input).dcacheSystem =
      stage.dcacheSystem.clock (stage.dcacheRequest exeToMem) :=
  rfl

/-- The cache leaves its idle state for a line, or waits for one. -/
def awaitsLine (stage : MemStage) (exeToMem : ExeToMem) : Bool :=
  stage.dcacheSystem.misses (stage.dcacheRequest exeToMem) ||
    stage.dcache.state == .miss

/-- A store becomes ready at the head of the store buffer while a load waits
for its line. -/
def releasesStore
    (stage : MemStage)
    (exeToMem : ExeToMem)
    (input : MemInput) :
    Bool :=
  stage.awaitsLine exeToMem && !stage.storeBuffer.rspValid &&
    (stage.storeBuffer.clock
      (stage.storeBufferInput exeToMem input)).rspValid

/-- The cache does not answer while it waits. -/
theorem dcacheReady_of_awaitsLine (awaits : stage.awaitsLine exeToMem = true) :
    stage.dcacheReady exeToMem = false := by
  simp only [awaitsLine, DcacheSystem.misses, Bool.or_eq_true,
    Bool.and_eq_true, beq_iff_eq, Bool.not_eq_true'] at awaits
  rcases awaits with ⟨⟨_, asks⟩, misses⟩ | waits
  · change stage.dcache.hit (stage.dcacheRequest exeToMem) = false at misses
    simp [dcacheReady, Dcache.ready, asks, misses]
  · simp [dcacheReady, Dcache.ready, waits]

end MemStage

namespace Core

variable (powerUp : Core)

/-- The request shown to the data cache in a cycle. -/
def shown (cycle : Nat) : DcacheRequest :=
  (powerUp.run cycle).datapath.mem.dcacheRequest
    (powerUp.run cycle).datapath.exeToMemQ

/-- The data cache with its memory in a cycle. -/
def dcacheSystem (cycle : Nat) : DcacheSystem :=
  (powerUp.run cycle).datapath.mem.dcacheSystem

/-- In this cycle the cache leaves its idle state for a line, or waits for
one. -/
def awaitsLine (cycle : Nat) : Bool :=
  (powerUp.run cycle).datapath.mem.awaitsLine
    (powerUp.run cycle).datapath.exeToMemQ

/-- In this cycle a store becomes ready while a load waits for its line. -/
def releasesStore (cycle : Nat) : Bool :=
  (powerUp.run cycle).datapath.mem.releasesStore
    (powerUp.run cycle).datapath.exeToMemQ
    ((powerUp.run cycle).datapath.memInput (powerUp.run cycle).answer)

variable {powerUp} {start later : Nat}

/-- Every state of the store buffer is a window. -/
theorem run_storeBuffer_wellFormed (cycle : Nat) :
    (powerUp.run cycle).datapath.mem.storeBuffer.WellFormed := by
  induction cycle with
  | zero =>
      exact StoreBuffer.wellFormed_reset
  | succ cycle inductionHypothesis =>
      exact (inductionHypothesis.preserved _).1

/-- A request that waits is shown again. -/
theorem shown_succ
    {cycle : Nat}
    (asks : (powerUp.shown cycle).valid = true)
    (awaits : powerUp.awaitsLine cycle = true)
    (noRelease : powerUp.releasesStore cycle = false) :
    (powerUp.shown (cycle + 1)).addr = (powerUp.shown cycle).addr ∧
      (powerUp.shown (cycle + 1)).we = (powerUp.shown cycle).we ∧
      (powerUp.shown (cycle + 1)).valid = true := by
  have notReady := MemStage.dcacheReady_of_awaitsLine awaits
  have wellFormed : (powerUp.run cycle).datapath.mem.storeBuffer.WellFormed :=
    run_storeBuffer_wellFormed cycle
  cases presented :
      (powerUp.run cycle).datapath.mem.storeBuffer.rspValid with
  | true =>
      have notTaken :
          ((powerUp.run cycle).datapath.mem.storeBufferInput
            (powerUp.run cycle).datapath.exeToMemQ
            ((powerUp.run cycle).datapath.memInput
              (powerUp.run cycle).answer)).rspReady = false :=
        notReady
      obtain ⟨presentedAgain, sameAddr, _⟩ :=
        StoreBuffer.rspValid_held wellFormed presented notTaken
      have next : (powerUp.run (cycle + 1)).datapath.mem.sbRspValid = true :=
        presentedAgain
      have before : (powerUp.run cycle).datapath.mem.sbRspValid = true :=
        presented
      simp only [shown, MemStage.dcacheRequest, MemStage.dcacheAddr, next,
        before, if_true, Bool.or_true]
      exact ⟨sameAddr, trivial, trivial⟩
  | false =>
      have before : (powerUp.run cycle).datapath.mem.sbRspValid = false :=
        presented
      have next :
          (powerUp.run (cycle + 1)).datapath.mem.sbRspValid = false := by
        have awaitsToo :
            (powerUp.run cycle).datapath.mem.awaitsLine
              (powerUp.run cycle).datapath.exeToMemQ = true :=
          awaits
        simp only [releasesStore, MemStage.releasesStore, awaitsToo,
          presented, Bool.not_false, Bool.true_and] at noRelease
        exact noRelease
      have isLoad :
          MemStage.isLoad (powerUp.run cycle).datapath.exeToMemQ = true := by
        simpa [shown, MemStage.dcacheRequest, before] using asks
      have stalls : (powerUp.run cycle).datapath.stallFromMem = true := by
        simp [Datapath.stallFromMem, MemStage.stall, isLoad, notReady]
      have held :
          (powerUp.run (cycle + 1)).datapath.exeToMemQ =
            (powerUp.run cycle).datapath.exeToMemQ := by
        simp [run, clock, Datapath.clock, stalls]
      simp [shown, MemStage.dcacheRequest, MemStage.dcacheAddr, next, before,
        held, isLoad]

/-- A request misses in the first cycle, and the cache has not been idle again
since. -/
def InMiss (start later : Nat) : Prop :=
  (powerUp.dcacheSystem start).misses (powerUp.shown start) = true ∧
    start < later ∧
    ∀ between,
      start < between → between ≤ later →
      (powerUp.dcacheSystem between).dcache.state ≠ .idle

/-- The cache waits for its line in every cycle of a miss but the last. -/
theorem InMiss.awaitsLine
    (inMiss : powerUp.InMiss start later)
    {between : Nat}
    (after : start ≤ between)
    (before : between < later) :
    powerUp.awaitsLine between = true := by
  obtain ⟨misses, _, notIdle⟩ := inMiss
  rcases Nat.eq_or_lt_of_le after with rfl | inside
  · exact Bool.or_eq_true_iff.mpr (.inl misses)
  · have here := notIdle between inside before.le
    have next := notIdle (between + 1) (Nat.lt_succ_of_lt inside) before
    have state : (powerUp.dcacheSystem between).dcache.state = .miss := by
      cases state : (powerUp.dcacheSystem between).dcache.state with
      | idle =>
          exact (here state).elim
      | miss =>
          rfl
      | loadLine =>
          refine (next ?_).elim
          change (powerUp.dcacheSystem between).dcache.nextState _ _ = _
          simp only [Dcache.nextState, state]
    exact Bool.or_eq_true_iff.mpr (.inr (beq_iff_eq.mpr state))

/-- The request of a miss is shown as long as no store is released. -/
theorem shown_of_inMiss
    (inMiss : powerUp.InMiss start later)
    (noRelease :
      ∀ cycle, cycle < later → powerUp.releasesStore cycle = false) :
    (powerUp.shown later).addr = (powerUp.shown start).addr ∧
      (powerUp.shown later).we = (powerUp.shown start).we ∧
      (powerUp.shown later).valid = true := by
  have asks : (powerUp.shown start).valid = true := by
    have misses := inMiss.1
    simp only [DcacheSystem.misses, Bool.and_eq_true] at misses
    exact misses.1.2
  obtain ⟨age, rfl⟩ := Nat.exists_eq_add_of_le inMiss.2.1.le
  have held :
      ∀ earlier,
        earlier ≤ age →
        (powerUp.shown (start + earlier)).addr = (powerUp.shown start).addr ∧
          (powerUp.shown (start + earlier)).we =
            (powerUp.shown start).we ∧
          (powerUp.shown (start + earlier)).valid = true := by
    intro earlier within
    induction earlier with
    | zero =>
        exact ⟨rfl, rfl, asks⟩
    | succ earlier inductionHypothesis =>
        obtain ⟨sameAddr, sameWe, asksStill⟩ :=
          inductionHypothesis (Nat.le_of_succ_le within)
        have before : start + earlier < start + age :=
          Nat.add_lt_add_left within start
        obtain ⟨nextAddr, nextWe, asksNext⟩ :=
          shown_succ asksStill
            (inMiss.awaitsLine (Nat.le_add_right start earlier) before)
            (noRelease _ before)
        exact
          ⟨nextAddr.trans sameAddr, nextWe.trans sameWe, asksNext⟩
  exact held age (Nat.le_refl age)

/-- If the pipe drains when the request misses, the line of the request is on
its way. -/
theorem fetching_of_inMiss
    (inMiss : powerUp.InMiss start later)
    (noRelease :
      ∀ cycle, cycle < later → powerUp.releasesStore cycle = false)
    (drained : (powerUp.dcacheSystem start).drained = true) :
    ∃ age,
      age ≤ 11 ∧
        (powerUp.dcacheSystem later).Fetching age
          (powerUp.shown start).addr := by
  obtain ⟨misses, ordered, notIdle⟩ := inMiss
  induction later, ordered using Nat.le_induction with
  | base =>
      exact
        ⟨0, Nat.zero_le _,
          DcacheSystem.fetching_of_misses misses drained⟩
  | succ later ordered inductionHypothesis =>
      have notIdleBefore :
          ∀ between,
            start < between → between ≤ later →
            (powerUp.dcacheSystem between).dcache.state ≠ .idle :=
        fun between after within =>
          notIdle between after (Nat.le_succ_of_le within)
      have noReleaseBefore :
          ∀ cycle, cycle < later → powerUp.releasesStore cycle = false :=
        fun cycle before => noRelease cycle (Nat.lt_succ_of_lt before)
      obtain ⟨age, bound, fetching⟩ :=
        inductionHypothesis noReleaseBefore notIdleBefore
      have held :=
        (shown_of_inMiss ⟨misses, ordered, notIdleBefore⟩
          noReleaseBefore).1
      have early : age ≠ 11 := by
        intro last
        have state := fetching.state
        rw [if_pos last] at state
        apply notIdle (later + 1) (Nat.lt_succ_of_lt ordered)
          (Nat.le_refl _)
        change (powerUp.dcacheSystem later).dcache.nextState _ _ = _
        simp only [Dcache.nextState, state]
      exact
        ⟨age + 1, by omega,
          fetching.clock (by omega) (congrArg Dcache.lineAligned held)⟩

variable (powerUp) in
/-- From the cycle in which a request misses until the cache is idle again, the
address and the write enable that missed are shown, and the line that is
installed in the end is that of the address. -/
def MissStable (horizon : Nat) : Prop :=
  ∀ start later,
    powerUp.InMiss start later → later ≤ horizon →
    (powerUp.shown later).addr = (powerUp.shown start).addr ∧
      (powerUp.shown later).we = (powerUp.shown start).we ∧
      ((powerUp.dcacheSystem later).dcache.state = .loadLine →
        (powerUp.dcacheSystem (later + 1)).dcache.cacheMem
            (Dcache.index (powerUp.shown start).addr) =
          { valid := true
            tag := Dcache.tagIn (powerUp.shown start).addr
            data :=
              Line.read (powerUp.dcacheSystem later).memory
                (Dcache.lineAligned (powerUp.shown start).addr) })

/--
Misses are stable in every run in which no store becomes ready at the head of
the store buffer while a load waits for its line, and in which the pipe of the
memory drains whenever a request misses.
-/
theorem missStable_of_noRelease
    {horizon : Nat}
    (noRelease :
      ∀ cycle, cycle < horizon → powerUp.releasesStore cycle = false)
    (clear :
      ∀ cycle,
        cycle < horizon →
        (powerUp.dcacheSystem cycle).misses (powerUp.shown cycle) = true →
        (powerUp.dcacheSystem cycle).drained = true) :
    powerUp.MissStable horizon := by
  intro start later inMiss within
  have noReleaseBefore :
      ∀ cycle, cycle < later → powerUp.releasesStore cycle = false :=
    fun cycle before => noRelease cycle (Nat.lt_of_lt_of_le before within)
  obtain ⟨sameAddr, sameWe, _⟩ := shown_of_inMiss inMiss noReleaseBefore
  refine ⟨sameAddr, sameWe, ?_⟩
  intro loads
  have drained :=
    clear start (Nat.lt_of_lt_of_le inMiss.2.1 within) inMiss.1
  obtain ⟨age, _, fetching⟩ :=
    fetching_of_inMiss inMiss noReleaseBefore drained
  have last : age = 11 := by
    have state := fetching.state
    rw [loads] at state
    by_contra before
    rw [if_neg before] at state
    cases state
  subst last
  rw [← sameAddr] at fetching ⊢
  rw [← fetching.lineD]
  exact Function.update_self _ _ _

/-- A load, and a store to another line. -/
def loadThenStore : List Bus32 :=
  [ 0x20002283, -- lw x5, 512(x0)
    0x24502023 ] -- sw x5, 576(x0)

/-- Both miss, and both misses are stable: the store commits in cycle 31, when
no line is awaited. -/
theorem missStable_loadThenStore :
    (withProgram loadThenStore).MissStable 45 ∧
      Clocked.collect
          (fun cycle =>
            if ((withProgram loadThenStore).dcacheSystem cycle).misses
                ((withProgram loadThenStore).shown cycle) then
              some
                (((withProgram loadThenStore).shown cycle).addr,
                  ((withProgram loadThenStore).shown cycle).we)
            else
              none)
          45 =
        [(512, false), (576, true)] ∧
      ((withProgram loadThenStore).run 31).datapath.commit.storeToMem =
        true ∧
      (withProgram loadThenStore).awaitsLine 31 = false := by
  have passed :
      Strict.always Core.clock
        (fun core =>
          !core.datapath.mem.releasesStore core.datapath.exeToMemQ
              (core.datapath.memInput core.answer) &&
            (!core.datapath.mem.dcacheSystem.misses
                (core.datapath.mem.dcacheRequest core.datapath.exeToMemQ) ||
              core.datapath.mem.dcacheSystem.drained)) 45
        (withProgram loadThenStore).reset = true := by
    decide +kernel
  have missed :
      Strict.collect Core.clock
        (fun core =>
          let request :=
            core.datapath.mem.dcacheRequest core.datapath.exeToMemQ
          if core.datapath.mem.dcacheSystem.misses request then
            some (request.addr, request.we)
          else
            none)
        45 (withProgram loadThenStore).reset = [(512, false), (576, true)] := by
    decide +kernel
  have commits :
      Strict.observe Core.clock
        (fun core =>
          (core.datapath.commit.storeToMem,
            core.datapath.mem.awaitsLine core.datapath.exeToMemQ)) 31
        (withProgram loadThenStore).reset = (true, false) := by
    decide +kernel
  rw [← collect_run] at missed
  rw [← observe_run (withProgram loadThenStore), Prod.mk.injEq] at commits
  refine ⟨missStable_of_noRelease ?_ ?_, missed, commits⟩
  · intro cycle before
    have check := check_run passed before.le
    rw [Bool.and_eq_true, Bool.not_eq_true'] at check
    exact check.1
  · intro cycle before misses
    have check := check_run passed before.le
    rw [Bool.and_eq_true, Bool.or_eq_true, Bool.not_eq_true'] at check
    apply check.2.resolve_left
    intro hits
    rw [Bool.not_eq_true'] at hits
    exact Bool.false_ne_true (hits.symm.trans misses)

/-- A store, and a load of another line. -/
def storeBeforeLoad : List Bus32 :=
  [ 0x10602023, -- sw x6, 256(x0)
    0x20002283 ] -- lw x5, 512(x0)

/-- The load misses in cycle 15, and the store commits in cycle 16: from cycle
17 on the cache is shown the address of the store, and installs the line of the
load there. -/
theorem storeBeforeLoad_not_stable :
    ¬ (withProgram storeBeforeLoad).MissStable 17 := by
  have starts :
      Strict.observe Core.clock
        (fun core =>
          (core.datapath.mem.dcacheSystem.misses
              (core.datapath.mem.dcacheRequest core.datapath.exeToMemQ),
            (core.datapath.mem.dcacheRequest
              core.datapath.exeToMemQ).addr)) 15
        (withProgram storeBeforeLoad).reset = (true, 512) := by
    decide +kernel
  have waits :
      Strict.observe Core.clock
        (fun core => core.datapath.mem.dcache.state) 16
        (withProgram storeBeforeLoad).reset = .miss := by
    decide +kernel
  have goesOn :
      Strict.observe Core.clock
        (fun core =>
          (core.datapath.mem.dcache.state,
            (core.datapath.mem.dcacheRequest
              core.datapath.exeToMemQ).addr)) 17
        (withProgram storeBeforeLoad).reset = (.miss, 256) := by
    decide +kernel
  rw [← observe_run (withProgram storeBeforeLoad)] at waits
  rw [← observe_run (withProgram storeBeforeLoad), Prod.mk.injEq]
    at starts goesOn
  have notIdle :
      ∀ between,
        15 < between → between ≤ 17 →
        ((withProgram storeBeforeLoad).dcacheSystem between).dcache.state ≠
          .idle := by
    intro between after within idle
    have cycles : between = 16 ∨ between = 17 := by omega
    rcases cycles with rfl | rfl
    · cases waits.symm.trans idle
    · cases goesOn.1.symm.trans idle
  intro stable
  have same :=
    (stable 15 17 ⟨starts.1, by decide, notIdle⟩ (Nat.le_refl 17)).1
  have differ : (256 : Bus32) = 512 :=
    goesOn.2.symm.trans (same.trans starts.2)
  revert differ
  decide

end Core

end Tartaruga
