import Tartaruga.Carriers
import Tartaruga.CoreEvaluation

namespace Tartaruga

/-!
# Every waiting entry has a carrier

A reorder-buffer entry that waits for its completion needs a copy of its
instruction in the pipeline.  The only copies a clock edge gives up are those
at the end of the execute pipe in a cycle in which the memory stage stalls.
-/

namespace Datapath

variable {core : Datapath} {answer : FetchAnswer} {instr : InstrData}
  {place : Place} {slot : RobIdx}

/-- Every register that carries instructions. -/
def places : List Place :=
  [.decodeToExe, .exePipe 0, .exePipe 1, .exePipe 2, .exePipe 3, .exeToMem,
    .memToWb]

theorem mem_places (place : Place) : place ∈ places := by
  cases place with
  | exePipe stage =>
      match stage with
      | 0 | 1 | 2 | 3 => simp [places]
  | _ =>
      simp [places]

/-- The entry is in use and its instruction has not completed. -/
def waits (core : Datapath) (slot : RobIdx) : Bool :=
  (core.rob.robQ slot).valid && !(core.rob.robQ slot).completed

/-- The register carries the instruction that owns the entry. -/
def carriesFor (core : Datapath) (slot : RobIdx) (place : Place) : Bool :=
  (core.register place).1 && (core.register place).2.robIdx == slot &&
    (core.register place).2.kanataId == (core.rob.robQ slot).kanataId

/-- Every waiting entry has a carrier. -/
def Carried (core : Datapath) : Prop :=
  ∀ slot,
    core.waits slot = true →
    ∃ place, core.carriesFor slot place = true

/--
The memory stage stalls while the only carrier of an entry stands at the end
of the execute pipe; the entry is neither completed nor flushed in this cycle.
-/
def dropsLast (core : Datapath) : Bool :=
  let slot := (core.register (.exePipe 3)).2.robIdx
  core.stallFromMem && !core.rob.flush && core.waits slot &&
    core.carriesFor slot (.exePipe 3) &&
    (places.all fun place =>
      decide (place = .exePipe 3) || !core.carriesFor slot place) &&
    !(core.rob.acceptsWb core.robWb && core.robWb.robEntryCommit == slot)

/-- A register carries for an entry through one instruction. -/
theorem carriesFor_iff :
    core.carriesFor slot place = true ↔
      ∃ instr,
        core.Carries place instr ∧ instr.robIdx = slot ∧
          instr.kanataId = (core.rob.robQ slot).kanataId := by
  simp only [carriesFor, Bool.and_eq_true, beq_iff_eq]
  constructor
  · rintro ⟨⟨valid, sameSlot⟩, sameId⟩
    exact ⟨_, ⟨valid, rfl⟩, sameSlot, sameId⟩
  · rintro ⟨_, ⟨valid, rfl⟩, sameSlot, sameId⟩
    exact ⟨⟨valid, sameSlot⟩, sameId⟩

/-- A waiting entry is in use and has not completed. -/
theorem waits_iff :
    core.waits slot = true ↔
      (core.rob.robQ slot).valid = true ∧
        (core.rob.robQ slot).completed = false := by
  rw [waits, Bool.and_eq_true, Bool.not_eq_true']

/-- A waiting entry is not the one that commits. -/
theorem not_retires_of_waits (waits : core.waits slot = true) :
    ¬ core.rob.retires slot := by
  rintro ⟨commits, rfl⟩
  have completed := (Rob.commitValid_iff.mp commits).2
  rw [(waits_iff.mp waits).2] at completed
  cases completed

/-- An entry goes on waiting until it is written back or flushed. -/
theorem waits_clock_iff
    (notAllocated : ¬ core.rob.allocates (core.robAlloc answer) slot) :
    (core.clock answer).waits slot = true ↔
      core.waits slot = true ∧ core.rob.flush = false ∧
        ¬ core.rob.writesBack core.robWb slot := by
  rw [waits_iff]
  change
    (core.rob.robD (core.robAlloc answer) core.robWb slot).valid = true ∧
      (core.rob.robD (core.robAlloc answer) core.robWb slot).completed =
        false ↔ _
  rw [Rob.robD_valid, Rob.robD_completed, if_neg notAllocated]
  constructor
  · intro after
    obtain ⟨⟨noFlush, _, valid⟩, completed⟩ := after
    have notWritten : ¬ core.rob.writesBack core.robWb slot := by
      intro written
      rw [if_pos written] at completed
      cases completed
    rw [if_neg notWritten] at completed
    exact
      ⟨waits_iff.mpr ⟨valid.resolve_left notAllocated, completed⟩, noFlush,
        notWritten⟩
  · intro before
    obtain ⟨waits, noFlush, notWritten⟩ := before
    obtain ⟨valid, completed⟩ := waits_iff.mp waits
    rw [if_neg notWritten]
    exact ⟨⟨noFlush, not_retires_of_waits waits, .inr valid⟩, completed⟩

/-- What waits after an edge without an allocation waited before it, was not
written back, and keeps its owner. -/
theorem waits_clock
    (waits : (core.clock answer).waits slot = true)
    (notAllocated : ¬ core.rob.allocates (core.robAlloc answer) slot) :
    core.waits slot = true ∧ core.rob.flush = false ∧
      ¬ core.rob.writesBack core.robWb slot ∧
      ((core.clock answer).rob.robQ slot).kanataId =
        (core.rob.robQ slot).kanataId := by
  have own : ((core.clock answer).rob.robQ slot).own = _ := own_clock
  rw [if_neg notAllocated] at own
  obtain ⟨waited, noFlush, notWritten⟩ :=
    (waits_clock_iff notAllocated).mp waits
  exact ⟨waited, noFlush, notWritten, congrArg RobOwn.kanataId own⟩

/-- The write-back register completes the entry it carries for. -/
theorem writesBack_of_memToWb
    (waits : core.waits slot = true)
    (carries : core.carriesFor slot .memToWb = true) :
    core.rob.writesBack core.robWb slot := by
  have inUse := (waits_iff.mp waits).1
  obtain ⟨_, ⟨valid, rfl⟩, sameSlot, _⟩ := carriesFor_iff.mp carries
  refine ⟨?_, sameSlot.symm⟩
  simp only [Rob.acceptsWb, Bool.and_eq_true]
  refine ⟨valid, ?_⟩
  change (core.rob.robQ (core.register .memToWb).2.robIdx).valid = true
  rw [sameSlot]
  exact inUse

/-- A waiting entry that survives the cycle has a carrier which the edge does
not give up, unless it drops the last one. -/
theorem carrier_moves
    (carried : core.Carried)
    (kept : core.dropsLast = false)
    (waits : core.waits slot = true)
    (noFlush : core.rob.flush = false)
    (notWritten : ¬ core.rob.writesBack core.robWb slot) :
    ∃ place,
      core.carriesFor slot place = true ∧ place ≠ .memToWb ∧
        (place = .exePipe 3 → core.stallFromMem = false) := by
  have notLast :
      ∀ place, core.carriesFor slot place = true → place ≠ .memToWb := by
    rintro place carries rfl
    exact notWritten (writesBack_of_memToWb waits carries)
  obtain ⟨place, carries⟩ := carried slot waits
  by_cases dropped : place = .exePipe 3 ∧ core.stallFromMem = true
  · obtain ⟨rfl, stalled⟩ := dropped
    have sameSlot : (core.register (.exePipe 3)).2.robIdx = slot := by
      obtain ⟨_, ⟨_, rfl⟩, sameSlot, _⟩ := carriesFor_iff.mp carries
      exact sameSlot
    have notAccepted :
        (core.rob.acceptsWb core.robWb &&
          core.robWb.robEntryCommit == slot) = false := by
      by_contra accepted
      simp only [Bool.not_eq_false, Bool.and_eq_true, beq_iff_eq]
        at accepted
      exact notWritten ⟨accepted.1, accepted.2.symm⟩
    have another :
        ¬ (places.all fun place =>
          decide (place = .exePipe 3) || !core.carriesFor slot place) =
            true := by
      intro none
      simp [dropsLast, sameSlot, stalled, noFlush, waits, carries, none,
        notAccepted] at kept
    simp only [List.all_eq_true, Bool.or_eq_true, decide_eq_true_eq,
      Bool.not_eq_true', not_forall, not_or, Bool.not_eq_false] at another
    obtain ⟨other, _, apart, carriesOther⟩ := another
    exact ⟨other, carriesOther, notLast other carriesOther,
      fun same => (apart same).elim⟩
  · refine ⟨place, carries, notLast place carries, fun same => ?_⟩
    by_contra stalled
    exact dropped ⟨same, by simpa using stalled⟩

/-- A cycle that does not drop a last carrier keeps every waiting entry
carried. -/
theorem carried_clock
    (shaped : core.Shaped)
    (carried : core.Carried)
    (kept : core.dropsLast = false) :
    (core.clock answer).Carried := by
  intro slot waits
  by_cases allocated : core.rob.allocates (core.robAlloc answer) slot
  · obtain ⟨allocates, rfl⟩ := allocated
    have noStall := (allocates_iff.mp allocates).1
    have enters :
        (core.clock answer).decodeToExeQ = core.decodeToExeD answer := by
      change core.decodeToExeNext answer = _
      simp [decodeToExeNext, noStall]
    have own :
        ((core.clock answer).rob.robQ core.rob.tailPtrQ).own = _ :=
      own_clock
    rw [if_pos ⟨allocates, rfl⟩] at own
    refine ⟨.decodeToExe, carriesFor_iff.mpr
      ⟨core.decoded, ⟨?_, ?_⟩, ?_, (congrArg RobOwn.kanataId own).symm⟩⟩
    · change (core.clock answer).decodeToExeQ.valid = true
      rw [enters]
      exact allocates
    · change (core.clock answer).decodeToExeQ.instr = core.decoded
      rw [enters]
      rfl
    · exact decoded_robIdx
  · obtain ⟨waitsBefore, noFlush, notWritten, sameOwner⟩ :=
      waits_clock waits allocated
    obtain ⟨place, carries, notLast, notDropped⟩ :=
      carrier_moves carried kept waitsBefore noFlush notWritten
    obtain ⟨instr, carriesInstr, sameSlot, sameId⟩ :=
      carriesFor_iff.mp carries
    obtain ⟨target, carriesAfter⟩ :=
      carries_onward shaped carriesInstr notLast notDropped
    exact ⟨target, carriesFor_iff.mpr
      ⟨instr, carriesAfter, sameSlot, sameId.trans sameOwner.symm⟩⟩

/-- A cycle that drops a last carrier leaves its entry without one. -/
theorem not_carried_clock
    (wellFormed : core.rob.WellFormed)
    (dropped : core.dropsLast = true) :
    ¬ (core.clock answer).Carried := by
  simp only [dropsLast, Bool.and_eq_true, Bool.not_eq_true',
    List.all_eq_true, Bool.or_eq_true, decide_eq_true_eq] at dropped
  obtain ⟨⟨⟨⟨⟨stalled, noFlush⟩, waits⟩, _⟩, noOther⟩, notAccepted⟩ :=
    dropped
  generalize (core.register (.exePipe 3)).2.robIdx = slot
    at waits noOther notAccepted
  intro carried
  have notAllocated :
      ¬ core.rob.allocates (core.robAlloc answer) slot := by
    rintro ⟨_, rfl⟩
    have inUse := (waits_iff.mp waits).1
    rw [wellFormed.tail_free] at inUse
    cases inUse
  have notWritten : ¬ core.rob.writesBack core.robWb slot := by
    rintro ⟨accepts, isSlot⟩
    simp [accepts, isSlot] at notAccepted
  have own : ((core.clock answer).rob.robQ slot).own = _ := own_clock
  rw [if_neg notAllocated] at own
  have sameOwner :
      ((core.clock answer).rob.robQ slot).kanataId =
        (core.rob.robQ slot).kanataId :=
    congrArg RobOwn.kanataId own
  have waitsAfter : (core.clock answer).waits slot = true :=
    (waits_clock_iff notAllocated).mpr ⟨waits, noFlush, notWritten⟩
  obtain ⟨place, carriesAfter⟩ := carried slot waitsAfter
  obtain ⟨instr, carries, sameSlot, sameId⟩ :=
    carriesFor_iff.mp carriesAfter
  rw [sameOwner] at sameId
  rcases carries_clock carries with
    ⟨_, allocated, rfl⟩ | ⟨source, feeds, carriesBefore⟩
  · apply notAllocated
    refine ⟨allocated, ?_⟩
    rw [← sameSlot]
    exact decoded_robIdx
  · have carriesFor : core.carriesFor slot source = true :=
      carriesFor_iff.mpr ⟨instr, carriesBefore, sameSlot, sameId⟩
    rcases noOther source (mem_places source) with isLast | apart
    · subst isLast
      generalize isSource : Place.exePipe 3 = source at feeds
      cases feeds with
      | advance stage =>
          injection isSource with sameStage
          have bound := stage.isLt
          have value := congrArg Fin.val sameStage
          change 3 = stage.val at value
          omega
      | leave moves =>
          rw [stalled] at moves
          cases moves
      | _ =>
          cases isSource
    · rw [carriesFor] at apart
      cases apart

end Datapath

namespace Core

/-- Every carried instruction of a run has a proper shape. -/
theorem run_shaped (powerUp : Core) (cycle : Nat) :
    (powerUp.run cycle).datapath.Shaped := by
  induction cycle with
  | zero =>
      intro place instr carries
      exact (Datapath.not_carries_reset _ carries).elim
  | succ cycle inductionHypothesis =>
      exact Datapath.shaped_clock inductionHypothesis

/--
In every run of the core, every waiting entry has a carrier in every state if
and only if no cycle stalls the memory stage while the only carrier of a
waiting entry stands at the end of the execute pipe.
-/
theorem carried_iff (powerUp : Core) :
    (∀ cycle, (powerUp.run cycle).datapath.Carried) ↔
      ∀ cycle, (powerUp.run cycle).datapath.dropsLast = false := by
  constructor
  · intro carried cycle
    by_contra dropped
    exact Datapath.not_carried_clock (powerUp.run_rob_wellFormed cycle)
      (by simpa using dropped) (carried (cycle + 1))
  · intro kept cycle
    induction cycle with
    | zero =>
        intro slot waits
        cases waits
    | succ cycle inductionHypothesis =>
        exact Datapath.carried_clock (powerUp.run_shaped cycle)
          inductionHypothesis (kept cycle)

/-- A multiplication in front of a load that misses. -/
def mulThenLoad : List Bus32 :=
  [ 0x020002b3, -- mul x5, x0, x0
    0x20002303 ] -- lw x6, 512(x0)

/--
The multiplication reaches the end of the execute pipe while the load stalls
the memory stage, and is lost: one cycle later its entry waits without a
carrier.
-/
theorem mulThenLoad_not_carried :
    ¬ ∀ cycle, ((withProgram mulThenLoad).run cycle).datapath.Carried := by
  intro carried
  have observed :
      Strict.observe Core.clock
        (fun core =>
          core.datapath.waits 0 &&
            Datapath.places.all fun place =>
              !core.datapath.carriesFor 0 place) 18
        (withProgram mulThenLoad).reset = true := by
    decide +kernel
  rw [← observe_run (withProgram mulThenLoad)] at observed
  have carriedThen := carried 18
  generalize (withProgram mulThenLoad).run 18 = core at observed carriedThen
  simp only [Bool.and_eq_true, List.all_eq_true, Bool.not_eq_true']
    at observed
  obtain ⟨place, carries⟩ := carriedThen 0 observed.1
  rw [observed.2 place (Datapath.mem_places place)] at carries
  cases carries

end Core

end Tartaruga
