import Tartaruga.BufferedStores
import Mathlib.Data.List.Infix

namespace Tartaruga

/-!
# Only committed stores reach the data cache

A commit names a store by its identifier only; its address and data are those
that the execute stage computed for it.  As long as no index is handed out
while an instruction still carries it, what the store buffer hands to the data
cache is a prefix of what committed.
-/

/-- The addresses and data of the stores executed so far, by identifier. -/
abbrev Issued := Nat → Option Store

namespace Datapath

variable {core : Datapath} {answer : FetchAnswer} {issued : Issued}
  {slot : RobIdx}

/-- The execute stage computes the address of the instruction it holds and
passes the data on. -/
def recordIssued (core : Datapath) (issued : Issued) : Issued :=
  if core.decodeToExeQ.valid then
    Function.update issued core.decodeToExeQ.instr.kanataId
      (some (Exe.resAlu core.decodeToExeQ, core.decodeToExeQ.dataRs2))
  else
    issued

/-- What a committing store writes. -/
def committedStore
    (core : Datapath)
    (issued : Issued) :
    Option (Option Store) :=
  if core.commit.storeToMem then some (issued core.commit.kanataId) else none

/-- What the data cache takes from the store buffer. -/
def handedStore (core : Datapath) : Option Store :=
  if core.mem.sbRspValid && core.mem.dcacheReady core.exeToMemQ then
    some (core.mem.storeBuffer.addrOut, core.mem.storeBuffer.dataWr)
  else
    none

/-- Stores on their way to the store buffer, and in it, are what execute
computed. -/
structure Recorded (core : Datapath) (issued : Issued) : Prop where
  inMemory :
    ∀ slot,
      core.StoreAt .exeToMem slot →
      issued (core.rob.robQ slot).kanataId =
        some (core.exeToMemQ.result, core.exeToMemQ.dataRs2)
  buffered :
    ∀ slot,
      core.Buffered slot →
      issued (core.rob.robQ slot).kanataId =
        some
          ((core.mem.storeBuffer.storeBufferQ (core.bufferSlot slot)).addr,
            (core.mem.storeBuffer.storeBufferQ (core.bufferSlot slot)).data)

/-- Nothing is on its way after reset. -/
theorem recorded_reset (core : Datapath) (issued : Issued) :
    core.reset.Recorded issued where
  inMemory := by
    rintro slot ⟨instr, carries, _⟩
    exact (not_carries_reset core carries).elim
  buffered _ buffered := (not_buffered_reset core buffered).elim

/-- Executing another instruction does not touch the record of a store. -/
theorem recordIssued_of_not_storeAt
    (tracked : core.Tracked)
    (valid : (core.rob.robQ slot).valid = true)
    (isStore : (core.rob.robQ slot).storeToMem = true)
    (notIssuing : ¬ core.StoreAt .decodeToExe slot) :
    core.recordIssued issued (core.rob.robQ slot).kanataId =
      issued (core.rob.robQ slot).kanataId := by
  unfold recordIssued
  by_cases executes : core.decodeToExeQ.valid = true
  · rw [if_pos executes, Function.update_of_ne]
    intro sameId
    have carries : core.Carries .decodeToExe core.decodeToExeQ.instr :=
      ⟨executes, rfl⟩
    have sameSlot :=
      tracked.sameSlot .decodeToExe _ slot carries valid sameId.symm
    rw [← sameSlot] at valid isStore
    have own := tracked.owned .decodeToExe _ carries valid
    exact notIssuing
      ⟨_, carries, (congrArg RobOwn.storeToMem own).symm.trans isStore,
        sameSlot, sameSlot ▸ valid⟩
  · rw [if_neg executes]

/-- A store that leaves execute carries its address and its data. -/
theorem exeToMemD_of_store
    (tracked : core.Tracked)
    (storeAt : core.StoreAt .decodeToExe slot)
    (moves : core.stallFromExe = false) :
    core.exeToMemD.result = Exe.resAlu core.decodeToExeQ ∧
      core.exeToMemD.dataRs2 = core.decodeToExeQ.dataRs2 := by
  obtain ⟨instr, carries, isStore, _⟩ := storeAt
  have shape := tracked.shaped _ _ carries
  obtain ⟨valid, rfl⟩ := carries
  change core.decodeToExeQ.instr.Shape at shape
  change core.decodeToExeQ.instr.storeToMem = true at isStore
  have notMul := (shape.ofStore isStore).2.1
  have single :
      core.decodeToExeQ.instr.exeStages = exeStagesDefault := by
    rcases shape.stages with ⟨isMul, _⟩ | ⟨_, single⟩
    · rw [notMul] at isMul
      cases isMul
    · exact single
  have free : (core.exe.exePipeQ 3).valid = false := by
    rw [← Exe.stall_default single]
    exact moves
  have last := Exe.exePipeD_last single free
  unfold exeToMemD Exe.exeToMemD
  rw [last]
  simp [notMul]

section Preservation

variable (tracked : core.Tracked) (inFlight : core.StoresInFlight)
  (recorded : core.Recorded issued)
include tracked inFlight recorded

/-- The record of a store that waits in front of the memory stage stays. -/
theorem recordIssued_of_inMemory (storeAt : core.StoreAt .exeToMem slot) :
    core.recordIssued issued (core.rob.robQ slot).kanataId =
      some (core.exeToMemQ.result, core.exeToMemQ.dataRs2) := by
  have notIssuing : ¬ core.StoreAt .decodeToExe slot :=
    fun issuing => (inFlight.issued slot issuing).2.1 storeAt
  have isStore := tracked.storeToMem_of_storeAt storeAt
  have valid : (core.rob.robQ slot).valid = true := by
    obtain ⟨_, _, _, _, valid⟩ := storeAt
    exact valid
  rw [recordIssued_of_not_storeAt tracked valid isStore notIssuing]
  exact recorded.inMemory slot storeAt

/-- The record of a buffered store stays. -/
theorem recordIssued_of_buffered (buffered : core.Buffered slot) :
    core.recordIssued issued (core.rob.robQ slot).kanataId =
      some
        ((core.mem.storeBuffer.storeBufferQ (core.bufferSlot slot)).addr,
          (core.mem.storeBuffer.storeBufferQ (core.bufferSlot slot)).data) := by
  have notIssuing : ¬ core.StoreAt .decodeToExe slot := by
    intro issuing
    obtain ⟨notCompleted, _, notWriting⟩ := inFlight.issued slot issuing
    rcases buffered.2.2 with completed | writing
    · rw [notCompleted] at completed
      cases completed
    · exact notWriting writing
  rw [recordIssued_of_not_storeAt tracked buffered.1 buffered.2.1 notIssuing]
  exact recorded.buffered slot buffered

/-- A store that arrives in front of the memory stage has been recorded. -/
theorem inMemory_clock
    (noReuse : core.reuses answer = false)
    (storeAt : (core.clock answer).StoreAt .exeToMem slot) :
    core.recordIssued issued
        ((core.clock answer).rob.robQ slot).kanataId =
      some ((core.clock answer).exeToMemQ.result,
        (core.clock answer).exeToMemQ.dataRs2) := by
  obtain ⟨survives, source⟩ :=
    storeAt_exeToMem_clock noReuse tracked storeAt
  rw [survives.kanataId_clock]
  change
    _ = some
      ((if !core.stallFromMem then core.exeToMemD
          else core.exeToMemQ).result,
        (if !core.stallFromMem then core.exeToMemD
          else core.exeToMemQ).dataRs2)
  rcases source with ⟨issuing, exeMoves, memMoves⟩ | ⟨held, stalls⟩
  · obtain ⟨result, data⟩ := exeToMemD_of_store tracked issuing exeMoves
    obtain ⟨instr, carries, _, rfl, valid⟩ := issuing
    have own := tracked.owned _ _ carries valid
    obtain ⟨executes, rfl⟩ := carries
    change core.decodeToExeQ.valid = true at executes
    rw [memMoves, Bool.not_false, if_pos rfl, result, data, recordIssued,
      if_pos executes,
      show (core.rob.robQ _).kanataId = core.decodeToExeQ.instr.kanataId from
        congrArg RobOwn.kanataId own, Function.update_self]
  · rw [stalls]
    exact recordIssued_of_inMemory tracked inFlight recorded held

/-- The record stays right in every cycle that does not hand out an index in
use. -/
theorem recorded_clock
    (noReuse : core.reuses answer = false)
    (buffers : core.Matches) :
    (core.clock answer).Recorded (core.recordIssued issued) := by
  refine ⟨fun slot storeAt =>
    inMemory_clock tracked inFlight recorded noReuse storeAt, ?_⟩
  intro slot buffered
  obtain ⟨survives, before⟩ := (buffered_clock tracked noReuse).mp buffered
  rw [survives.kanataId_clock, storeBuffer_clock]
  change
    _ = some
      ((core.mem.storeBuffer.storeBufferD (core.storeBufferInput answer)
          _).addr,
        (core.mem.storeBuffer.storeBufferD (core.storeBufferInput answer)
          _).data)
  rw [StoreBuffer.storeBufferD_addr, StoreBuffer.storeBufferD_data]
  rcases before with before | enters
  · have isLive := buffers.live _ before
    simp only [StoreBuffer.liveAt, Bool.and_eq_true] at isLive
    have notFilled :
        ¬ core.mem.storeBuffer.fills (core.storeBufferInput answer)
          (core.bufferSlot slot) := by
      intro filled
      have free := buffers.window.fills_free filled
      rw [isLive.1.1] at free
      cases free
    rw [bufferSlot_clock tracked inFlight before survives,
      if_neg notFilled, if_neg notFilled]
    exact recordIssued_of_buffered tracked inFlight recorded before
  · have fills := fills_of_enters tracked noReuse enters
    rw [bufferSlot_clock_of_enters tracked inFlight enters, if_pos fills,
      if_pos fills]
    exact recordIssued_of_inMemory tracked inFlight recorded enters.1

end Preservation

/-- What is known of the stores of a run that never hands out an index in
use. -/
structure StoresKept (core : Datapath) (issued : Issued) : Prop where
  tracked : core.Tracked
  inFlight : core.StoresInFlight
  stay : core.StoresDoNotJump
  buffers : core.Matches
  recorded : core.Recorded issued

/-- Nothing is in flight after reset. -/
theorem storesKept_reset (core : Datapath) (issued : Issued) :
    core.reset.StoresKept issued where
  tracked := tracked_reset core
  inFlight := storesInFlight_reset core
  stay := storesDoNotJump_reset core
  buffers := matches_reset core
  recorded := recorded_reset core issued

/-- A cycle that does not hand out an index in use keeps the stores. -/
theorem storesKept_clock
    (noReuse : core.reuses answer = false)
    (kept : core.StoresKept issued) :
    (core.clock answer).StoresKept (core.recordIssued issued) where
  tracked := tracked_clock kept.tracked noReuse
  inFlight := storesInFlight_clock kept.tracked noReuse kept.inFlight
  stay := storesDoNotJump_clock kept.tracked kept.stay
  buffers :=
    matches_clock kept.tracked noReuse kept.inFlight kept.stay kept.buffers
  recorded :=
    recorded_clock kept.tracked kept.inFlight kept.recorded noReuse
      kept.buffers

/-- A commit names what the store buffer holds in the slot of the commit. -/
theorem committedStore_eq (kept : core.StoresKept issued) :
    core.committedStore issued =
      (if (core.storeBufferInput answer).commit then
        some
          ((core.mem.storeBuffer.storeBufferQ
              (core.storeBufferInput answer).idxCommit).addr,
            (core.mem.storeBuffer.storeBufferQ
              (core.storeBufferInput answer).idxCommit).data)
        else none).map some := by
  change
    (if core.commit.storeToMem then _ else _) =
      (if core.commit.storeToMem then
        some
          ((core.mem.storeBuffer.storeBufferQ
              core.commit.storeBufferIdx).addr,
            (core.mem.storeBuffer.storeBufferQ
              core.commit.storeBufferIdx).data)
        else none).map some
  by_cases commits : core.commit.storeToMem = true
  · obtain ⟨_, buffered, names, sameId⟩ := buffered_of_commit commits
    rw [if_pos commits, if_pos commits, ← names, sameId,
      kept.recorded.buffered _ buffered]
    rfl
  · rw [if_neg commits, if_neg commits]
    rfl

end Datapath

namespace Core

variable (powerUp : Core)

/-- The addresses and data of the stores executed before a cycle. -/
def issued : Nat → Issued
  | 0 => fun _ => none
  | cycle + 1 =>
      (powerUp.run cycle).datapath.recordIssued (issued cycle)

/-- The address and data pairs of the stores that committed in the first
cycles, in commit order. -/
def committedStores : Nat → List (Option Store) :=
  Clocked.collect fun cycle =>
    (powerUp.run cycle).datapath.committedStore (powerUp.issued cycle)

/-- The address and data pairs handed to the data cache in the first cycles. -/
def handedStores : Nat → List Store :=
  Clocked.collect fun cycle => (powerUp.run cycle).datapath.handedStore

/-- The inputs of the store buffer during a run. -/
def storeBufferStimulus (cycle : Nat) : StoreBufferInput :=
  (powerUp.run cycle).datapath.storeBufferInput (powerUp.run cycle).answer

/-- The store buffer of a run is a run of the store buffer. -/
theorem run_storeBuffer (cycle : Nat) :
    (powerUp.run cycle).datapath.mem.storeBuffer =
      Clocked.run StoreBuffer.clock StoreBuffer.reset
        powerUp.storeBufferStimulus cycle := by
  induction cycle with
  | zero =>
      rfl
  | succ cycle inductionHypothesis =>
      rw [Clocked.run, ← inductionHypothesis]
      rfl

variable {powerUp}

/-- The stores are kept along a run that has not handed out a used index. -/
theorem run_storesKept
    {cycle : Nat}
    (fresh :
      ∀ earlier,
        earlier < cycle →
        (powerUp.run earlier).datapath.reuses
          (powerUp.run earlier).answer = false) :
    (powerUp.run cycle).datapath.StoresKept (powerUp.issued cycle) := by
  induction cycle with
  | zero =>
      exact Datapath.storesKept_reset _ _
  | succ cycle inductionHypothesis =>
      exact Datapath.storesKept_clock (fresh cycle (Nat.lt_succ_self _))
        (inductionHypothesis fun earlier before =>
          fresh earlier (Nat.lt_succ_of_lt before))

/--
In every run that never hands out an index while an instruction upstream of
write-back still carries it, the stores handed to the data cache are a prefix
of the committed ones, in commit order.
-/
theorem handed_prefix_committed
    {cycle : Nat}
    (fresh :
      ∀ earlier,
        earlier < cycle →
        (powerUp.run earlier).datapath.reuses
          (powerUp.run earlier).answer = false) :
    (powerUp.handedStores cycle).map some <+:
      powerUp.committedStores cycle := by
  have kept :
      ∀ earlier,
        earlier < cycle →
        (powerUp.run earlier).datapath.StoresKept
          (powerUp.issued earlier) :=
    fun earlier before =>
      run_storesKept fun first inFront =>
        fresh first (Nat.lt_trans inFront before)
  have follows :
      ∀ earlier,
        earlier < cycle →
        (Clocked.run StoreBuffer.clock StoreBuffer.reset
            powerUp.storeBufferStimulus earlier).Follows
          (powerUp.storeBufferStimulus earlier) := by
    intro earlier before
    have known := kept earlier before
    rw [← run_storeBuffer]
    exact Datapath.follows_of_matches known.tracked (fresh earlier before)
      known.inFlight known.stay known.buffers
  have handed :
      powerUp.handedStores cycle =
        StoreBuffer.handedOver powerUp.storeBufferStimulus cycle := by
    unfold handedStores StoreBuffer.handedOver
    apply Clocked.collect_congr
    intro earlier _
    rw [← run_storeBuffer]
    rfl
  have committed :
      powerUp.committedStores cycle =
        (StoreBuffer.committedStores powerUp.storeBufferStimulus
          cycle).map some := by
    unfold committedStores StoreBuffer.committedStores
    rw [Clocked.map_collect]
    apply Clocked.collect_congr
    intro earlier before
    rw [← run_storeBuffer]
    exact Datapath.committedStore_eq (kept earlier before)
  rw [handed, committed, ← StoreBuffer.handedOver_append_waiting follows,
    List.map_append]
  exact List.prefix_append _ _

/-- A jump that commits behind a slow product skips a store to address 516. -/
def skippedStore : List Bus32 :=
  [ 0x00500093, -- addi x1, x0, 5
    0x20102023, -- sw x1, 512(x0)
    0x02108133, -- mul x2, x1, x1
    0x0080006f, -- jal x0, 8
    0x20102223, -- sw x1, 516(x0)
    0x20202423 ] -- sw x2, 520(x0)

/--
The two other stores have committed and have been handed over after 45 cycles.
The skipped one was in the store buffer, discarded, in cycle 42.
-/
theorem handed_prefix_committed_skippedStore :
    (withProgram skippedStore).handedStores 45 = [(512, 5), (520, 25)] ∧
      (withProgram skippedStore).committedStores 45 =
        [some (512, 5), some (520, 25)] ∧
      ((withProgram skippedStore).run
          42).datapath.mem.storeBuffer.storeBufferQ 1 =
        { data := 5, addr := 516, valid := true, committed := false,
          discarded := true } := by
  have passed :
      Strict.always Core.clock
        (fun core => !core.datapath.reuses core.answer) 44
        (withProgram skippedStore).reset = true := by
    decide +kernel
  have handed :
      Strict.collect Core.clock (fun core => core.datapath.handedStore) 45
        (withProgram skippedStore).reset = [(512, 5), (520, 25)] := by
    decide +kernel
  have storeCommits :
      (Strict.collect Core.clock
        (fun core => if core.datapath.commit.storeToMem then some () else none)
        45 (withProgram skippedStore).reset).length = 2 := by
    decide +kernel
  have discarded :
      Strict.observe Core.clock
        (fun core => core.datapath.mem.storeBuffer.storeBufferQ 1) 42
        (withProgram skippedStore).reset =
      { data := 5, addr := 516, valid := true, committed := false,
        discarded := true } := by
    decide +kernel
  have fresh :
      ∀ earlier,
        earlier < 45 →
        ((withProgram skippedStore).run earlier).datapath.reuses
          ((withProgram skippedStore).run earlier).answer = false := by
    intro earlier covered
    simpa using check_run passed (Nat.le_of_lt_succ covered)
  have inOrder := handed_prefix_committed fresh
  rw [← collect_run] at handed storeCommits
  rw [← observe_run (withProgram skippedStore)] at discarded
  generalize withProgram skippedStore = powerUp
    at handed storeCommits discarded inOrder ⊢
  have committed :
      (powerUp.committedStores 45).map (fun _ => ()) =
        Clocked.collect
          (fun cycle =>
            if (powerUp.run cycle).datapath.commit.storeToMem then some ()
            else none)
          45 := by
    rw [committedStores, Clocked.map_collect]
    apply Clocked.collect_congr
    intro cycle _
    unfold Datapath.committedStore
    split <;> rfl
  have count : (powerUp.committedStores 45).length = 2 := by
    rw [← storeCommits, ← committed, List.length_map]
  refine ⟨handed, ?_, discarded⟩
  rw [handedStores, handed] at inOrder
  exact (inOrder.eq_of_length count.symm).symm

/-- What is recorded under an identifier was executed under it. -/
theorem executed_of_issued
    {cycle id : Nat}
    {store : Store}
    (recorded : powerUp.issued cycle id = some store) :
    ∃ earlier,
      earlier < cycle ∧
        (powerUp.run earlier).datapath.decodeToExeQ.valid = true ∧
        (powerUp.run earlier).datapath.decodeToExeQ.instr.kanataId = id ∧
        Exe.resAlu (powerUp.run earlier).datapath.decodeToExeQ = store.1 := by
  induction cycle with
  | zero =>
      cases recorded
  | succ cycle inductionHypothesis =>
      rw [issued, Datapath.recordIssued] at recorded
      by_cases executes :
          (powerUp.run cycle).datapath.decodeToExeQ.valid = true ∧
            (powerUp.run cycle).datapath.decodeToExeQ.instr.kanataId = id
      · rw [if_pos executes.1, executes.2, Function.update_self] at recorded
        obtain rfl := Option.some.inj recorded
        exact ⟨cycle, Nat.lt_succ_self _, executes.1, executes.2, rfl⟩
      · have unchanged : powerUp.issued cycle id = some store := by
          split at recorded
          · rename_i valid
            rwa [Function.update_of_ne
              fun same => executes ⟨valid, same.symm⟩] at recorded
          · exact recorded
        obtain ⟨earlier, before, executed⟩ := inductionHypothesis unchanged
        exact ⟨earlier, Nat.lt_succ_of_lt before, executed⟩

/-- The last jump skips a load that misses and the store behind it, which
holds the index that the first instruction after the flush gets. -/
def squashedStore : List Bus32 :=
  [ 0x0040006f ] ++ -- jal x0, 4
    List.replicate 14 0x00000013 ++ -- addi x0, x0, 0
    [ 0x0140006f, -- jal x0, 20
      0x20002283, -- lw x5, 512(x0)
      0x20002223, -- sw x0, 516(x0)
      0x00000013, -- addi x0, x0, 0
      0x00000013, -- addi x0, x0, 0
      0x24002c23 ] -- sw x0, 600(x0)

/--
The squashed store to address 516 is handed to the data cache, and no
committed store writes that address.
-/
theorem squashedStore_handed_over :
    ((withProgram squashedStore).run 73).datapath.handedStore =
        some (516, 0) ∧
      ¬ ((withProgram squashedStore).handedStores 74).map some <+:
        (withProgram squashedStore).committedStores 74 := by
  have observed :
      Strict.observe Core.clock (fun core => core.datapath.handedStore) 73
        (withProgram squashedStore).reset = some (516, 0) := by
    decide +kernel
  have passed :
      Strict.always Core.clock
        (fun core =>
          (!core.datapath.commit.storeToMem ||
              core.datapath.commit.kanataId == 23) &&
            !(core.datapath.decodeToExeQ.valid &&
              core.datapath.decodeToExeQ.instr.kanataId == 23 &&
              Exe.resAlu core.datapath.decodeToExeQ == 516)) 73
        (withProgram squashedStore).reset = true := by
    decide +kernel
  rw [← observe_run (withProgram squashedStore)] at observed
  have commitsOther :
      ∀ cycle,
        cycle ≤ 73 →
        ((withProgram squashedStore).run
          cycle).datapath.commit.storeToMem = true →
        ((withProgram squashedStore).run
          cycle).datapath.commit.kanataId = 23 := by
    intro cycle covered commits
    have check := check_run passed covered
    simpa [commits] using (Bool.and_eq_true_iff.mp check).1
  have executesOther :
      ∀ cycle,
        cycle ≤ 73 →
        ((withProgram squashedStore).run
          cycle).datapath.decodeToExeQ.valid = true →
        ((withProgram squashedStore).run
          cycle).datapath.decodeToExeQ.instr.kanataId = 23 →
        Exe.resAlu ((withProgram squashedStore).run
          cycle).datapath.decodeToExeQ ≠ 516 := by
    intro cycle covered valid sameId sameAddress
    have check := check_run passed covered
    have executes := (Bool.and_eq_true_iff.mp check).2
    simp [valid, sameId, sameAddress] at executes
  generalize withProgram squashedStore = powerUp
    at observed commitsOther executesOther ⊢
  refine ⟨observed, ?_⟩
  intro handedFirst
  have handed : (516, 0) ∈ powerUp.handedStores 74 :=
    Clocked.mem_collect.mpr ⟨73, by omega, observed⟩
  have committed : some (516, 0) ∈ powerUp.committedStores 74 :=
    handedFirst.subset (List.mem_map_of_mem handed)
  obtain ⟨cycle, before, emits⟩ := Clocked.mem_collect.mp committed
  unfold Datapath.committedStore at emits
  split at emits
  · rename_i commits
    rw [commitsOther cycle (by omega) commits] at emits
    obtain ⟨earlier, inFront, valid, sameId, sameAddress⟩ :=
      executed_of_issued (Option.some.inj emits)
    exact executesOther earlier (by omega) valid sameId sameAddress
  · cases emits

end Core

end Tartaruga
