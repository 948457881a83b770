import Tartaruga.ProgramExecution
import Tartaruga.Simulator

namespace Tartaruga

/-!
# Verdicts

A test passes if the memory stage displays that its execution succeeded.  What
is displayed at the end is decided by the first store to the finish address in
the execution of the program by the instruction set.
-/

open Rv32 (Code Executes Program)

namespace MemStage

/-- What is displayed for a store to the finish address. -/
def verdict (data : Bus32) : Display :=
  if data = 1 then .executionSucceeded
  else if data = 2 then .executionFailed
  else .error

variable {buffer : StoreBuffer} {display : Display}

/-- A finishing line is the verdict on the store that is presented. -/
theorem of_finishes
    (displayed : MemStage.display buffer = some display)
    (finishes : display.finishes = true) :
    buffer.presented = some (finishAddr, buffer.dataWr) ∧
      display = verdict buffer.dataWr := by
  cases presents : buffer.rspValid with
  | false =>
      simp [MemStage.display, presents] at displayed
  | true =>
      by_cases atFinish : buffer.addrOut = finishAddr
      · refine ⟨by simp [StoreBuffer.presented, presents, atFinish], ?_⟩
        simp only [MemStage.display, presents, atFinish, beq_self_eq_true,
          Bool.and_self, if_true, beq_iff_eq] at displayed
        rw [verdict]
        split
        · rename_i one
          rw [if_pos one] at displayed
          exact (Option.some.inj displayed).symm
        · rename_i notOne
          rw [if_neg notOne] at displayed
          split
          · rename_i two
            rw [if_pos two] at displayed
            exact (Option.some.inj displayed).symm
          · rename_i notTwo
            rw [if_neg notTwo] at displayed
            exact (Option.some.inj displayed).symm
      · have notFinish : (buffer.addrOut == finishAddr) = false :=
          beq_false_of_ne atFinish
        simp only [MemStage.display, presents, notFinish, Bool.and_false,
          Bool.false_eq_true, if_false, Bool.true_and] at displayed
        split at displayed
        · rw [← Option.some.inj displayed] at finishes
          cases finishes
        · cases displayed

/-- A store to a word of the array is not displayed. -/
theorem display_eq_none
    (isWord :
      buffer.rspValid = true → Memory.IsWord buffer.addrOut) :
    MemStage.display buffer = none := by
  cases presents : buffer.rspValid with
  | false =>
      simp [MemStage.display, presents]
  | true =>
      have inside := (isWord presents).inside
      have notFinish : (buffer.addrOut == finishAddr) = false := by
        apply beq_false_of_ne
        intro atFinish
        rw [atFinish] at inside
        revert inside
        decide
      have notOutput : (buffer.addrOut == outputAddr) = false := by
        apply beq_false_of_ne
        intro atOutput
        rw [atOutput] at inside
        revert inside
        decide
      simp [MemStage.display, notFinish, notOutput]

end MemStage

namespace Core

variable {powerUp : Core} {cycle : Nat}

/-- The stores among the instructions that commit in the first cycles. -/
def retiredStores (powerUp : Core) (cycle : Nat) : List Store :=
  (powerUp.retirements cycle).filterMap fun retired => retired.effect.store

/-- They are the committed stores of the store buffer. -/
theorem retiredStores_eq (powerUp : Core) (cycle : Nat) :
    powerUp.retiredStores cycle =
      StoreBuffer.committedStores powerUp.storeBufferStimulus cycle := by
  rw [retiredStores, retirements, Clocked.collect,
    StoreBuffer.committedStores, Clocked.collect, List.filterMap_filterMap]
  apply List.filterMap_congr
  intro earlier _
  rw [← run_storeBuffer]
  cases commits : (powerUp.run earlier).datapath.commit.valid with
  | true =>
      rfl
  | false =>
      have silent := storeToMem_of_silent commits
      change
        none =
          if (powerUp.run earlier).datapath.commit.storeToMem then _ else _
      rw [silent]
      rfl

section Undisturbed

variable (stays : powerUp.StaysUndisturbed cycle)
include stays

/-- The stores that the data cache has taken name words. -/
theorem isWord_of_handedOver
    {store : Store}
    (member :
      store ∈
        StoreBuffer.handedOver powerUp.storeBufferStimulus cycle) :
    Memory.IsWord store.1 := by
  obtain ⟨earlier, before, takes⟩ := Clocked.mem_collect.mp member
  rw [← run_storeBuffer] at takes
  dsimp only at takes
  split at takes
  · rename_i handsOver
    rw [← Option.some.inj takes]
    apply (stays earlier before).presentsWord
    simp only [StoreBuffer.handsOver, Bool.and_eq_true] at handsOver
    exact handsOver.1
  · cases takes

/-- A store that is presented at the finish address is the first one to commit
there. -/
theorem find_retiredStores
    {data : Bus32}
    (presented :
      (powerUp.run cycle).datapath.mem.storeBuffer.presented =
        some (MemStage.finishAddr, data)) :
    (powerUp.retiredStores cycle).find?
        (fun store => decide (store.1 = MemStage.finishAddr)) =
      some (MemStage.finishAddr, data) := by
  obtain ⟨rest, arrived⟩ :=
    StoreBuffer.reachedHead_prefix_committed (run_follows_protocol stays)
  have nowhere :
      (StoreBuffer.handedOver powerUp.storeBufferStimulus cycle).find?
          (fun store => decide (store.1 = MemStage.finishAddr)) =
        none := by
    apply List.find?_eq_none.mpr
    intro store member atFinish
    have inside := (isWord_of_handedOver stays member).inside
    rw [of_decide_eq_true atFinish] at inside
    revert inside
    decide
  have head :
      StoreBuffer.presentedAt powerUp.storeBufferStimulus cycle =
        some (MemStage.finishAddr, data) := by
    rw [StoreBuffer.presentedAt, ← run_storeBuffer]
    exact presented
  rw [retiredStores_eq, ← arrived, StoreBuffer.reachedHead, head,
    List.append_assoc, List.find?_append, nowhere]
  rfl

end Undisturbed

end Core

namespace Simulator

variable {powerUp : Core} {program : Program} {rounds cycle fuel : Nat}
  {last : Simulator}

/-- While nothing is disturbed, nothing is displayed. -/
theorem displays_eq_none
    (stays : powerUp.StaysUndisturbed rounds)
    (before : cycle < rounds) :
    displays (powerUp.run cycle) = none :=
  MemStage.display_eq_none (stays cycle before).presentsWord

/-- Up to the first store to the finish address, fetch reads the program that
the memory held at reset, and nothing disturbs the loads and stores. -/
def RegularUntilFinish (powerUp : Core) : Prop :=
  ∀ cycle,
    (∀ earlier, earlier ≤ cycle → finishesIn powerUp earlier = false) →
    (powerUp.run cycle).fetchPath.Reads powerUp.ownMemory
        (powerUp.run cycle).datapath.mem.memory ∧
      (powerUp.run cycle).datapath.Undisturbed (powerUp.run cycle).answer

/-- A loop that ends with a finish ends right behind the first store to the
finish address. -/
theorem exists_first_finish
    (ended : mainLoop fuel powerUp = some last)
    (finished : last.gotFinish = true) :
    ∃ cycle,
      last = ofRun powerUp (cycle + 1) ∧
        finishesIn powerUp cycle = true ∧
        ∀ earlier, earlier < cycle → finishesIn powerUp earlier = false := by
  obtain ⟨rounds, _, ends, reached⟩ :=
    Looping.whileLoop_eq_some_iff.mp ended
  have reached : after powerUp rounds = last := reached
  obtain ⟨_, running⟩ := ends_iff.mp ends
  rw [after_eq_ofRun] at reached
  subst reached
  obtain ⟨cycle, member, finishes⟩ := List.any_eq_true.mp finished
  have before := List.mem_range.mp member
  have isLast : rounds = cycle + 1 := by
    by_contra notLast
    exact
      running (cycle + 1)
        (Nat.lt_of_le_of_ne before fun same => notLast same.symm)
        (.inl ⟨cycle, Nat.lt_succ_self cycle, finishes⟩)
  subst isLast
  refine ⟨cycle, rfl, finishes, ?_⟩
  intro earlier isEarlier
  by_contra finishesEarlier
  exact
    running (earlier + 1) (Nat.succ_lt_succ isEarlier)
      (.inl
        ⟨earlier, Nat.lt_succ_self earlier,
          Bool.not_eq_false _ ▸ finishesEarlier⟩)

/--
If the main loop ends with a finish, then a single line has been displayed.  It
is the verdict on the data of the first store to the finish address in the
execution of the program by the instruction set, provided that

* no word of the memory that is decoded names the last register;
* the program does not change and nothing disturbs its loads and stores before
  the finish;
* the execution stays in the program, takes no branch beyond two kilobytes and
  makes no indirect jump to an odd sum.
-/
theorem verdict_sound
    (accesses : AccessProgram powerUp.ownWord)
    (assembled : Assembled program powerUp.ownWord)
    (meets :
      program.Meets wordAccess (Rv32.State.start powerUp.ownMemory)
        WithinReach)
    (regular : RegularUntilFinish powerUp)
    (ended : mainLoop fuel powerUp = some last)
    (finished : last.gotFinish = true) :
    ∃ events state data,
      Executes wordAccess program (Rv32.State.start powerUp.ownMemory) events
          state ∧
        (events.filterMap fun retired => retired.effect.store).find?
            (fun store => decide (store.1 = MemStage.finishAddr)) =
          some (MemStage.finishAddr, data) ∧
        last.displayed = [MemStage.verdict data] := by
  obtain ⟨cycle, rfl, finishes, first⟩ := exists_first_finish ended finished
  have regularBefore :
      ∀ earlier,
        earlier < cycle →
        (powerUp.run earlier).fetchPath.Reads powerUp.ownMemory
            (powerUp.run earlier).datapath.mem.memory ∧
          (powerUp.run earlier).datapath.Undisturbed
            (powerUp.run earlier).answer :=
    fun earlier before =>
      regular earlier fun other notLater =>
        first other (Nat.lt_of_le_of_lt notLater before)
  have fetches : powerUp.FetchesProgram powerUp.ownMemory cycle :=
    fun earlier before => (regularBefore earlier before).1
  have stays : powerUp.StaysUndisturbed cycle :=
    fun earlier before => (regularBefore earlier before).2
  have executes :=
    Core.executes_accesses accesses fetches stays assembled meets
  rw [finishesIn] at finishes
  cases displayed : displays (powerUp.run cycle) with
  | none =>
      rw [displayed] at finishes
      cases finishes
  | some display =>
      rw [displayed] at finishes
      obtain ⟨presented, isVerdict⟩ :=
        MemStage.of_finishes displayed finishes
      refine
        ⟨_, _, _, executes, Core.find_retiredStores stays presented, ?_⟩
      have silent :
          Clocked.collect (fun cycle => displays (powerUp.run cycle))
              cycle =
            [] := by
        apply List.filterMap_eq_nil_iff.mpr
        intro earlier member
        exact displays_eq_none stays (List.mem_range.mp member)
      rw [ofRun, Clocked.collect_succ, silent, displayed, isVerdict]
      rfl

/-- A finish is remembered. -/
theorem gotFinish_ofRun
    (before : cycle < rounds)
    (finishes : finishesIn powerUp cycle = true) :
    (ofRun powerUp rounds).gotFinish = true :=
  List.any_eq_true.mpr ⟨cycle, List.mem_range.mpr before, finishes⟩

/-- A test that passes. -/
def passingCodes : List Code :=
  [.arithmetic (.lui 1 0x40000), .arithmetic (.opImm .addi 2 0 1),
    .sw 2 1 0, .jal 0 0]

/-- A core with this test. -/
def passing : Core :=
  .withProgram (passingCodes.map Code.encode)

/-- The first nineteen cycles are regular, and the twentieth finishes. -/
theorem passing_regular :
    RegularUntilFinish passing ∧
      (∀ cycle, cycle < 19 → finishesIn passing cycle = false) ∧
      finishesIn passing 19 = true := by
  have passed :
      Strict.always Core.clock
        (fun core =>
          Core.readsProgram
                (Memory.holding (passingCodes.map Code.encode)) core &&
            core.datapath.undisturbed core.answer) 18 passing.reset =
        true := by
    decide +kernel
  have finishes : finishesIn passing 19 = true := by
    have observed :
        Strict.observe Core.clock
            (fun core =>
              (displays core).any MemStage.Display.finishes) 19
            passing.reset =
          true := by
      decide +kernel
    rw [Strict.observe_eq, ← Core.run_eq_iterate] at observed
    exact observed
  have checks :
      ∀ cycle,
        cycle < 19 →
        Core.readsProgram (Memory.holding (passingCodes.map Code.encode))
              (passing.run cycle) =
            true ∧
          (passing.run cycle).datapath.undisturbed
              (passing.run cycle).answer =
            true := by
    intro cycle before
    have check := Core.check_run passed (Nat.le_of_lt_succ before)
    rwa [Bool.and_eq_true] at check
  have fetches : passing.FetchesProgram passing.ownMemory 19 :=
    Core.fetchesProgram_of_reads fun cycle before => (checks cycle before).1
  have regular :
      ∀ cycle,
        cycle < 19 →
        (passing.run cycle).fetchPath.Reads passing.ownMemory
            (passing.run cycle).datapath.mem.memory ∧
          (passing.run cycle).datapath.Undisturbed
            (passing.run cycle).answer :=
    fun cycle before =>
      ⟨fetches cycle before,
        Datapath.undisturbed_sound (checks cycle before).2⟩
  have silent : ∀ cycle, cycle < 19 → finishesIn passing cycle = false := by
    intro cycle before
    have nothing : displays (passing.run cycle) = none :=
      MemStage.display_eq_none (regular cycle before).2.presentsWord
    rw [finishesIn, nothing]
    rfl
  refine ⟨?_, silent, finishes⟩
  intro cycle notYet
  rcases Nat.lt_or_ge cycle 19 with before | late
  · exact regular cycle before
  · have stillRunning := notYet 19 late
    rw [finishes] at stillRunning
    cases stillRunning

/-- It is reported to have succeeded. -/
theorem verdict_sound_passing :
    ∃ events state data,
      Executes wordAccess (Program.ofList passingCodes)
          (Rv32.State.start passing.ownMemory) events state ∧
        (events.filterMap fun retired => retired.effect.store).find?
            (fun store => decide (store.1 = MemStage.finishAddr)) =
          some (MemStage.finishAddr, data) ∧
        (ofRun passing 20).displayed = [MemStage.verdict data] := by
  obtain ⟨regular, silent, finishes⟩ := passing_regular
  have onProgram :
      (passingCodes.map Code.encode).all
          (fun word => decide (AccessWord word)) =
        true := by
    decide +kernel
  have accesses : AccessProgram passing.ownWord :=
    Core.programWord_holding AccessWord
      (fun word member =>
        of_decide_eq_true (List.all_eq_true.mp onProgram word member))
      (by decide +kernel) (by decide +kernel)
  have closed : (Program.ofList passingCodes).Closed :=
    Program.closed_ofList (by decide +kernel)
  have halts : Halted passing 20 :=
    .inl ⟨19, Nat.lt_succ_self 19, finishes⟩
  have running : ∀ earlier, earlier < 20 → ¬ Halted passing earlier := by
    rintro earlier before (⟨cycle, isEarlier, finishesEarlier⟩ | long)
    · rw [silent cycle (by omega)] at finishesEarlier
      cases finishesEarlier
    · have short : silence passing earlier ≤ earlier :=
        (Looping.le_silence_iff.mp (Nat.le_refl _)).1
      omega
  have ended : mainLoop 20 passing = some (ofRun passing 20) :=
    Looping.whileLoop_eq_some_iff.mpr
      ⟨20, Nat.le_refl 20, ends_iff.mpr ⟨halts, running⟩,
        after_eq_ofRun passing 20⟩
  have finished : (ofRun passing 20).gotFinish = true :=
    gotFinish_ofRun (Nat.lt_succ_self 19) finishes
  exact
    verdict_sound accesses (assembled_ofList (by decide))
      (meets_withinReach closed (by decide) (by decide) _) regular ended
      finished

end Simulator

end Tartaruga
