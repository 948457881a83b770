import Tartaruga.Clocked
import Tartaruga.Datapath
import Tartaruga.DecodedShape
import Tartaruga.RobWindow
import Mathlib.Order.Monotone.Basic

namespace Tartaruga

/-!
# Runs of the core

A run starts from any power-up state, is reset once and then clocked.  The
datapath of a run is a run of the datapath whose stimulus is the instruction
cache, so what holds for every fetch timing holds for the core.
-/

/-- The core at the beginning of every cycle after reset. -/
def Core.run (powerUp : Core) : Nat → Core
  | 0 => powerUp.reset
  | cycle + 1 => (Core.run powerUp cycle).clock

/-- A run is the iteration of the clock edge. -/
theorem Core.run_eq_iterate (powerUp : Core) (cycle : Nat) :
    powerUp.run cycle = Core.clock^[cycle] powerUp.reset := by
  induction cycle with
  | zero =>
      rfl
  | succ cycle inductionHypothesis =>
      rw [Core.run, inductionHypothesis, Function.iterate_succ_apply']

/-- The datapath of a run is a run of the datapath. -/
theorem Core.run_datapath (powerUp : Core) (cycle : Nat) :
    (powerUp.run cycle).datapath =
      Clocked.run Datapath.clock powerUp.datapath.reset
        (fun earlier => (powerUp.run earlier).answer) cycle := by
  induction cycle with
  | zero =>
      rfl
  | succ cycle inductionHypothesis =>
      rw [Clocked.run, ← inductionHypothesis]
      rfl

/--
An invariant of the datapath that every admissible cycle preserves holds in
every state of a run of the core whose cycles are admissible.
-/
theorem Core.run_invariant
    {powerUp : Core}
    {invariant : Datapath → Prop}
    {admissible : Datapath → FetchAnswer → Prop}
    (starts : invariant powerUp.datapath.reset)
    (preserved :
      ∀ core answer,
        admissible core answer →
        invariant core →
        invariant (core.clock answer))
    (cycle : Nat)
    (admitted :
      ∀ earlier,
        earlier < cycle →
        admissible (powerUp.run earlier).datapath
          (powerUp.run earlier).answer) :
    invariant (powerUp.run cycle).datapath := by
  induction cycle with
  | zero =>
      exact starts
  | succ cycle inductionHypothesis =>
      exact preserved _ _ (admitted cycle (Nat.lt_succ_self _))
        (inductionHypothesis fun earlier before =>
          admitted earlier (Nat.lt_succ_of_lt before))

namespace Datapath

variable {core : Datapath} {answer : FetchAnswer}

/-- Decode hands an instruction to execute and to the reorder buffer. -/
def allocates (core : Datapath) (answer : FetchAnswer) : Bool :=
  (core.decodeToExeD answer).valid

/-- What an allocation needs. -/
theorem allocates_iff :
    core.allocates answer = true ↔
      core.stall answer = false ∧ core.validDecode = true ∧
        core.rob.flush = false := by
  unfold allocates decodeToExeD commit
  rw [← Rob.commit_branchTaken]
  simp [and_assoc]

/-- Decode never allocates into a full or a flushing buffer. -/
theorem robAlloc_admits : core.rob.Admits (core.robAlloc answer) := by
  intro allocated
  change core.allocates answer = true at allocated
  rw [allocates_iff] at allocated
  obtain ⟨noStall, _, noFlush⟩ := allocated
  rw [Rob.commit_branchTaken]
  simp only [stall, Bool.or_eq_false_iff] at noStall
  exact ⟨noStall.1.2, noFlush⟩

/-- A clock edge keeps the occupied part of the reorder buffer a window. -/
theorem rob_wellFormed_clock
    (wellFormed : core.rob.WellFormed) :
    (core.clock answer).rob.WellFormed :=
  wellFormed.preserved robAlloc_admits core.robWb

/-- What allocation has recorded in an entry after an edge. -/
theorem own_clock {slot : RobIdx} :
    ((core.clock answer).rob.robQ slot).own =
      if core.rob.allocates (core.robAlloc answer) slot then
        (core.robAlloc answer).own
      else (core.rob.robQ slot).own :=
  Rob.robD_own

/-- What write-back has recorded in an entry after an edge. -/
theorem payload_clock {slot : RobIdx} :
    ((core.clock answer).rob.robQ slot).payload =
      if core.rob.writesBack core.robWb slot then core.robWb.payload
      else (core.rob.robQ slot).payload :=
  Rob.robD_payload

/-- A pipeline without a memory stall and without an execute stall moves. -/
theorem stall_of_stallFromMem (stalled : core.stallFromMem = true) :
    core.stall answer = true := by
  simp [stall, stalled]

theorem stall_of_stallFromExe (stalled : core.stallFromExe = true) :
    core.stall answer = true := by
  simp [stall, stalled]

/-- The identifier that the next allocation will carry, at least. -/
def nextId (core : Datapath) : Nat :=
  if core.validDecode then core.idDecode else core.kanataIdCounter

/-- What decode holds was fetched under an earlier identifier. -/
def DecodeNumbered (core : Datapath) : Prop :=
  core.validDecode = true → core.idDecode < core.kanataIdCounter

/-- Fetching keeps the numbering. -/
theorem decodeNumbered_clock (numbered : core.DecodeNumbered) :
    (core.clock answer).DecodeNumbered := by
  unfold DecodeNumbered clock kanataIdCounterD
  unfold DecodeNumbered at numbered
  cases flushes : core.commit.branchTaken <;>
    cases stalled : core.stall answer <;> simp
  exact numbered

/-- The next identifier never decreases. -/
theorem nextId_le_clock (numbered : core.DecodeNumbered) :
    core.nextId ≤ (core.clock answer).nextId := by
  unfold nextId clock kanataIdCounterD
  unfold DecodeNumbered at numbered
  cases flushes : core.commit.branchTaken <;>
    cases stalled : core.stall answer <;>
    cases valid : core.validDecode <;>
    simp [valid] at numbered ⊢ <;>
    first
      | omega
      | (cases fetched : answer.valid <;> simp <;> omega)

/-- An allocation carries the next identifier and moves it on. -/
theorem nextId_of_allocates
    (numbered : core.DecodeNumbered)
    (allocated : core.allocates answer = true) :
    core.decoded.kanataId = core.nextId ∧
      core.nextId < (core.clock answer).nextId := by
  obtain ⟨noStall, valid, noFlush⟩ := allocates_iff.mp allocated
  have identity : core.decoded.kanataId = core.idDecode :=
    decoder_kanataId _ _ _ _
  rw [← Rob.commit_branchTaken] at noFlush
  change core.commit.branchTaken = false at noFlush
  constructor
  · rw [nextId, valid, if_pos rfl]
    exact identity
  · have before := numbered valid
    unfold nextId clock kanataIdCounterD
    simp only [noFlush, noStall, valid, if_true, if_false,
      Bool.false_eq_true, Bool.not_false, Bool.and_self]
    cases answer.valid <;> simp <;> omega

end Datapath

namespace Core

variable (powerUp : Core)

/-- In every state of a run the occupied part of the buffer is a window. -/
theorem run_rob_wellFormed (cycle : Nat) :
    (powerUp.run cycle).datapath.rob.WellFormed := by
  induction cycle with
  | zero =>
      exact Rob.wellFormed_reset _
  | succ cycle inductionHypothesis =>
      exact Datapath.rob_wellFormed_clock inductionHypothesis

/-- In every state of a run decode is numbered below the fetch counter. -/
theorem run_decodeNumbered (cycle : Nat) :
    (powerUp.run cycle).datapath.DecodeNumbered := by
  induction cycle with
  | zero =>
      intro valid
      cases valid
  | succ cycle inductionHypothesis =>
      exact Datapath.decodeNumbered_clock inductionHypothesis

/-- The next identifier never decreases along a run. -/
theorem run_nextId_monotone :
    Monotone fun cycle => (powerUp.run cycle).datapath.nextId :=
  monotone_nat_of_le_succ fun cycle =>
    Datapath.nextId_le_clock (powerUp.run_decodeNumbered cycle)

/-- Identifiers of allocations increase along a run: they tell allocations
apart. -/
theorem allocations_increase
    {earlier later : Nat}
    (ordered : earlier < later)
    (first :
      (powerUp.run earlier).datapath.allocates
        (powerUp.run earlier).answer = true)
    (second :
      (powerUp.run later).datapath.allocates
        (powerUp.run later).answer = true) :
    (powerUp.run earlier).datapath.decoded.kanataId <
      (powerUp.run later).datapath.decoded.kanataId := by
  obtain ⟨firstId, moves⟩ :=
    Datapath.nextId_of_allocates (powerUp.run_decodeNumbered earlier) first
  obtain ⟨secondId, _⟩ :=
    Datapath.nextId_of_allocates (powerUp.run_decodeNumbered later) second
  rw [firstId, secondId]
  exact Nat.lt_of_lt_of_le moves (powerUp.run_nextId_monotone ordered)

end Core

end Tartaruga
