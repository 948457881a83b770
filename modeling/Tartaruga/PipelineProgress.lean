import Tartaruga.LiveCarriers
import Tartaruga.Progress
import Tartaruga.SequentialRefinement

namespace Tartaruga

/-!
# The pipeline makes progress

Every copy of an instruction leaves the pipeline after as many steps as there
are registers in front of it.  A memory stage that stalls holds up a step in
front of itself and behind decode only; the execute pipe moves in every cycle.
So the head of the reorder buffer commits as long as the memory stage never
stalls for long and its instruction is not lost.
-/

namespace Datapath

variable {core : Datapath} {answer : FetchAnswer} {instr : InstrData}
  {place target : Place} {rank : Nat} {wanted : InstrData → Prop}
  {stage : Fin 4}

/-- How many steps an instruction in the register needs at most until its
result has reached the reorder buffer. -/
inductive Needs (core : Datapath) : Place → Nat → Prop where
  | writeBack :
      Needs core .memToWb 1
  | memory :
      Needs core .exeToMem 2
  | pipe (stage : Fin 4) :
      Needs core (.exePipe stage) (6 - stage.val)
  | mult :
      core.decodeToExeQ.instr.exeStages = exeStagesMult →
      Needs core .decodeToExe 7
  | single (stage : Fin 4) :
      core.decodeToExeQ.instr.exeStages = exeStagesDefault →
      (∀ earlier : Fin 4,
        earlier ≤ stage →
        (core.exe.exePipeQ earlier.castSucc).valid = false) →
      Needs core .decodeToExe (6 - stage.val)
  | behind :
      core.decodeToExeQ.instr.exeStages = exeStagesDefault →
      Needs core .decodeToExe 7

/-- The steps that a memory stage that stalls can hold up. -/
def Stuck (rank : Nat) : Prop :=
  rank = 2 ∨ rank = 3 ∨ rank = 7

instance (rank : Nat) : Decidable (Stuck rank) :=
  inferInstanceAs (Decidable (_ ∨ _))

/-- Every instruction needs a step. -/
theorem Needs.pos (needs : core.Needs place rank) : 0 < rank := by
  cases needs <;> omega

/-- Every instruction needs seven steps at most. -/
theorem exists_needs
    (shaped : core.Shaped)
    (carries : core.Carries place instr) :
    ∃ rank, rank ≤ 7 ∧ core.Needs place rank := by
  have shape := shaped place instr carries
  cases place with
  | decodeToExe =>
      obtain ⟨_, rfl⟩ := carries
      rcases shape.stages with ⟨_, isMult⟩ | ⟨_, single⟩
      · exact ⟨7, Nat.le_refl 7, .mult isMult⟩
      · exact ⟨7, Nat.le_refl 7, .behind single⟩
  | exePipe stage =>
      exact ⟨6 - stage.val, by omega, .pipe stage⟩
  | exeToMem =>
      exact ⟨2, by decide, .memory⟩
  | memToWb =>
      exact ⟨1, by decide, .writeBack⟩

section Single

variable (single : core.decodeToExeQ.instr.exeStages = exeStagesDefault)
include single

/-- The first stage of the execute pipe is free behind a single-cycle
instruction. -/
theorem exePipe_free_of_single (answer : FetchAnswer) :
    ((core.clock answer).exe.exePipeQ 0).valid = false := by
  rcases Exe.exePipeD_cases core.exe core.decodeToExeQ 0 with
    moved | ⟨_, entry, _⟩
  · exact congrArg DecodeToExe.valid moved
  · rw [single] at entry
    cases entry

/-- A free stage of the execute pipe moves on behind a single-cycle
instruction. -/
theorem exePipe_free_succ
    (stage : Fin 3)
    (free : (core.exe.exePipeQ stage.castSucc.castSucc).valid = false)
    (answer : FetchAnswer) :
    ((core.clock answer).exe.exePipeQ stage.succ.castSucc).valid = false := by
  have sameSlot : stage.succ.castSucc = (stage.castSucc.succ : Fin 5) := rfl
  rcases Exe.exePipeD_cases core.exe core.decodeToExeQ stage.castSucc.succ with
    moved | ⟨_, entry, _⟩
  · rw [Exe.shifted_succ] at moved
    rw [sameSlot]
    exact (congrArg DecodeToExe.valid moved).trans free
  · rw [single] at entry
    have last : (4 : Fin 5) = stage.castSucc.succ := Option.some.inj entry
    have value : 4 = stage.val + 1 := congrArg Fin.val last
    have bound := stage.isLt
    omega

/-- One stage more is free in the next cycle. -/
theorem exePipe_free_clock
    (free :
      ∀ earlier : Fin 4,
        earlier ≤ stage →
        (core.exe.exePipeQ earlier.castSucc).valid = false)
    (answer : FetchAnswer)
    {next : Fin 4}
    (within : next.val ≤ stage.val + 1) :
    ((core.clock answer).exe.exePipeQ next.castSucc).valid = false := by
  cases next using Fin.cases with
  | zero =>
      exact exePipe_free_of_single single answer
  | succ before =>
      exact
        exePipe_free_succ single before
          (free before.castSucc (Nat.le_of_succ_le_succ within)) answer

/-- A single-cycle instruction that is held waits for the pipe, or behind a
free one for the memory stage. -/
theorem needs_of_held
    (held : core.stallFromExe = true ∨ core.stallFromMem = true)
    (free :
      ∀ earlier : Fin 4,
        earlier ≤ stage →
        (core.exe.exePipeQ earlier.castSucc).valid = false)
    (answer : FetchAnswer) :
    ∃ lower,
      (core.clock answer).Needs .decodeToExe lower ∧
        (lower < 6 - stage.val ∨
          lower = 6 - stage.val ∧ core.stallFromMem = true ∧
            Stuck (6 - stage.val)) := by
  have next : (core.clock answer).decodeToExeQ = core.decodeToExeQ :=
    decodeToExeQ_of_held held
  have singleNext :
      (core.clock answer).decodeToExeQ.instr.exeStages =
        exeStagesDefault := by
    rw [next]
    exact single
  cases stage using Fin.lastCases with
  | last =>
      have fromMem : core.stallFromMem = true := by
        rcases held with fromExe | fromMem
        · rw [stallFromExe, Exe.stall_default single] at fromExe
          have taken : (core.exe.exePipeQ 3).valid = false :=
            free (Fin.last 3) (Fin.le_refl _)
          rw [fromExe] at taken
          cases taken
        · exact fromMem
      refine ⟨3, .single 3 singleNext ?_, .inr ⟨rfl, fromMem, .inr (.inl rfl)⟩⟩
      intro earlier _
      have bound := earlier.isLt
      exact
        exePipe_free_clock single free answer
          (by change earlier.val ≤ 3 + 1; omega)
  | cast stage =>
      have bound := stage.isLt
      refine ⟨6 - stage.succ.val, .single stage.succ singleNext ?_, .inl ?_⟩
      · intro earlier before
        exact exePipe_free_clock single free answer before
      · simp only [Fin.val_succ, Fin.val_castSucc]
        omega

end Single

/-- A register that feeds another one is further away from the end, unless the
memory stage holds it. -/
theorem Needs.feeds
    (needs : core.Needs place rank)
    (feeds : core.Feeds place target)
    (answer : FetchAnswer) :
    ∃ lower,
      (core.clock answer).Needs target lower ∧
        (lower < rank ∨
          lower = rank ∧ core.stallFromMem = true ∧ Stuck rank) := by
  cases needs with
  | writeBack =>
      exact (feeds.source_ne_memToWb rfl).elim
  | memory =>
      cases feeds with
      | holdMem stalls =>
          exact ⟨2, .memory, .inr ⟨rfl, stalls, .inl rfl⟩⟩
      | finish _ =>
          exact ⟨1, .writeBack, .inl (by decide)⟩
  | pipe stage =>
      generalize source : Place.exePipe stage = place at feeds
      cases feeds with
      | advance next =>
          injection source with same
          subst same
          refine ⟨_, .pipe next.succ, .inl ?_⟩
          have bound := next.isLt
          simp only [Fin.val_succ, Fin.val_castSucc]
          omega
      | leave _ =>
          injection source with same
          subst same
          exact ⟨2, .memory, .inl (by decide)⟩
      | _ =>
          cases source
  | mult isMult =>
      cases feeds with
      | holdExe held =>
          rcases held with fromExe | fromMem
          · rw [stallFromExe, Exe.stall_mult isMult] at fromExe
            cases fromExe
          · have next :
                (core.clock answer).decodeToExeQ = core.decodeToExeQ :=
              decodeToExeQ_of_held (.inr fromMem)
            refine ⟨7, .mult ?_, .inr ⟨rfl, fromMem, .inr (.inr rfl)⟩⟩
            rw [next]
            exact isMult
      | enter stage _ =>
          exact ⟨6 - stage.val, .pipe stage, .inl (by omega)⟩
      | single _ _ _ =>
          exact ⟨2, .memory, .inl (by decide)⟩
  | single stage single free =>
      have bound := stage.isLt
      cases feeds with
      | holdExe held =>
          exact needs_of_held single held free answer
      | enter stage entry =>
          rw [single] at entry
          have last : (4 : Fin 5) = stage.castSucc := Option.some.inj entry
          have value : 4 = stage.val := congrArg Fin.val last
          have stageBound := stage.isLt
          omega
      | single _ _ _ =>
          exact ⟨2, .memory, .inl (by omega)⟩
  | behind single =>
      cases feeds with
      | holdExe held =>
          have next : (core.clock answer).decodeToExeQ = core.decodeToExeQ :=
            decodeToExeQ_of_held held
          refine ⟨6 - (0 : Fin 4).val, .single 0 ?_ ?_, .inl (by decide)⟩
          · rw [next]
            exact single
          · intro earlier before
            obtain rfl : earlier = 0 := Fin.le_zero_iff.mp before
            exact exePipe_free_of_single single answer
      | enter stage _ =>
          exact ⟨6 - stage.val, .pipe stage, .inl (by omega)⟩
      | single _ _ _ =>
          exact ⟨2, .memory, .inl (by decide)⟩

/-- Every copy of a wanted instruction needs so many steps at most. -/
def NeedsAtMost
    (core : Datapath)
    (wanted : InstrData → Prop)
    (rank : Nat) :
    Prop :=
  ∀ place instr,
    core.Carries place instr →
    wanted instr →
    ∃ needs, needs ≤ rank ∧ core.Needs place needs

/-- Seven are enough. -/
theorem needsAtMost_seven (shaped : core.Shaped) :
    core.NeedsAtMost wanted 7 :=
  fun _ _ carries _ => exists_needs shaped carries

/-- Without steps to make nothing is wanted. -/
theorem NeedsAtMost.not_carries
    (needs : core.NeedsAtMost wanted 0)
    (isWanted : wanted instr) :
    ¬ core.Carries place instr := by
  intro carries
  obtain ⟨rank, none, needs⟩ := needs place instr carries isWanted
  have positive := needs.pos
  omega

/-- Every cycle that does not decode a wanted instruction makes a step, unless
the memory stage holds it up. -/
theorem NeedsAtMost.clock
    (needs : core.NeedsAtMost wanted (rank + 1))
    (old : core.allocates answer = true → ¬ wanted core.decoded) :
    (core.clock answer).NeedsAtMost wanted rank ∨
      (core.stallFromMem = true ∧ Stuck (rank + 1)) ∧
        (core.clock answer).NeedsAtMost wanted (rank + 1) := by
  have onward :
      ∀ place instr,
        (core.clock answer).Carries place instr →
        wanted instr →
        ∃ lower,
          (core.clock answer).Needs place lower ∧
            (lower ≤ rank ∨
              lower = rank + 1 ∧ core.stallFromMem = true ∧
                Stuck (rank + 1)) := by
    intro place instr carries isWanted
    rcases carries_clock carries with
      ⟨_, allocated, rfl⟩ | ⟨source, feeds, before⟩
    · exact (old allocated isWanted).elim
    · obtain ⟨before, inTime, needsBefore⟩ :=
        needs source instr before isWanted
      obtain ⟨lower, needsNext, falls | ⟨rfl, stalls, stuck⟩⟩ :=
        needsBefore.feeds feeds answer
      · exact ⟨lower, needsNext, .inl (by omega)⟩
      · rcases Nat.lt_or_eq_of_le inTime with below | rfl
        · exact ⟨_, needsNext, .inl (Nat.le_of_lt_succ below)⟩
        · exact ⟨_, needsNext, .inr ⟨rfl, stalls, stuck⟩⟩
  by_cases held : core.stallFromMem = true ∧ Stuck (rank + 1)
  · right
    refine ⟨held, ?_⟩
    intro place instr carries isWanted
    obtain ⟨lower, needsNext, below⟩ := onward place instr carries isWanted
    exact ⟨lower, by omega, needsNext⟩
  · left
    intro place instr carries isWanted
    obtain ⟨lower, needsNext, below | ⟨_, isHeld⟩⟩ :=
      onward place instr carries isWanted
    · exact ⟨lower, below, needsNext⟩
    · exact (held isHeld).elim

/-- How many cycles so many steps take, if the memory stage never stalls for
longer than the bound. -/
def patience (bound : Nat) : Nat → Nat
  | 0 => 0
  | rank + 1 =>
      patience bound rank + 1 + if Stuck (rank + 1) then bound else 0

theorem patience_seven (bound : Nat) : patience bound 7 = 3 * bound + 7 := by
  simp only [patience, Stuck]
  norm_num
  omega

/-- A head that waits stays at the head. -/
theorem headPtrQ_clock_of_waits
    (waits : core.waits core.rob.headPtrQ = true)
    (answer : FetchAnswer) :
    (core.clock answer).rob.headPtrQ = core.rob.headPtrQ ∧
      core.rob.flush = false := by
  have silent : core.rob.commitValid = false := by
    by_contra commits
    exact
      not_retires_of_waits waits ⟨Bool.not_eq_false _ ▸ commits, rfl⟩
  have noFlush : core.rob.flush = false := by
    by_contra flushes
    have commits := Rob.commitValid_of_flush (Bool.not_eq_false _ ▸ flushes)
    rw [silent] at commits
    cases commits
  refine ⟨?_, noFlush⟩
  change core.rob.headPtrD = core.rob.headPtrQ
  simp [Rob.headPtrD, silent, noFlush]

/-- A head that is written back commits in the next cycle. -/
theorem commitValid_clock_of_writesBack
    (waits : core.waits core.rob.headPtrQ = true)
    (written : core.rob.writesBack core.robWb core.rob.headPtrQ)
    (answer : FetchAnswer) :
    (core.clock answer).rob.commitValid = true := by
  obtain ⟨sameHead, noFlush⟩ := headPtrQ_clock_of_waits waits answer
  rw [Rob.commitValid_iff, sameHead]
  constructor
  · exact
      Rob.robD_valid.mpr
        ⟨noFlush, not_retires_of_waits waits, .inr (waits_iff.mp waits).1⟩
  · exact Rob.robD_completed.trans (if_pos written)

/-- A free head means an empty reorder buffer. -/
theorem empty_of_head
    (wellFormed : core.rob.WellFormed)
    (free : (core.rob.robQ core.rob.headPtrQ).valid = false)
    (slot : RobIdx) :
    (core.rob.robQ slot).valid = false := by
  by_contra occupied
  have inside := (wellFormed slot).mp (Bool.not_eq_false _ ▸ occupied)
  have headInside : (core.rob.robQ core.rob.headPtrQ).valid = true := by
    rw [wellFormed, Ring.dist_self]
    exact Nat.lt_of_le_of_lt (Nat.zero_le _) inside
  rw [free] at headInside
  cases headInside

/-- An entry in use is not handed out. -/
theorem decoded_robIdx_ne
    (wellFormed : core.rob.WellFormed)
    {slot : RobIdx}
    (occupied : (core.rob.robQ slot).valid = true) :
    core.decoded.robIdx ≠ slot := by
  rintro rfl
  rw [decoded_robIdx, wellFormed.tail_free] at occupied
  cases occupied

/-- The entry at the head waits for an instruction. -/
structure WaitsFor
    (core : Datapath)
    (slot : RobIdx)
    (owner : Nat) :
    Prop where
  isHead : core.rob.headPtrQ = slot
  waits : core.waits slot = true
  owned : (core.rob.robQ slot).kanataId = owner

/-- The instruction that owns an entry. -/
def IsOwner (slot : RobIdx) (owner : Nat) (instr : InstrData) : Prop :=
  instr.robIdx = slot ∧ instr.kanataId = owner

/-- The head goes on waiting for the same instruction until it commits. -/
theorem WaitsFor.clock
    {slot : RobIdx}
    {owner : Nat}
    (waitsFor : core.WaitsFor slot owner)
    (wellFormed : core.rob.WellFormed)
    (answer : FetchAnswer) :
    (core.clock answer).rob.commitValid = true ∨
      (core.clock answer).WaitsFor slot owner ∧
        (core.allocates answer = true →
          ¬ IsOwner slot owner core.decoded) := by
  obtain ⟨rfl, waits, owned⟩ := waitsFor
  obtain ⟨sameHead, noFlush⟩ := headPtrQ_clock_of_waits waits answer
  have notNext : core.decoded.robIdx ≠ core.rob.headPtrQ :=
    decoded_robIdx_ne wellFormed (waits_iff.mp waits).1
  have notAllocated :
      ¬ core.rob.allocates (core.robAlloc answer) core.rob.headPtrQ := by
    rintro ⟨_, isTail⟩
    exact notNext (decoded_robIdx.trans isTail.symm)
  by_cases written : core.rob.writesBack core.robWb core.rob.headPtrQ
  · exact .inl (commitValid_clock_of_writesBack waits written answer)
  · have waitsNext :
        (core.clock answer).waits core.rob.headPtrQ = true :=
      (waits_clock_iff notAllocated).mpr ⟨waits, noFlush, written⟩
    have sameOwner := (waits_clock waitsNext notAllocated).2.2.2
    exact
      .inr
        ⟨⟨sameHead, waitsNext, sameOwner.trans owned⟩,
          fun _ isOwner => notNext isOwner.1⟩

/-- A valid entry makes the head valid. -/
theorem head_occupied
    (wellFormed : core.rob.WellFormed)
    {slot : RobIdx}
    (occupied : (core.rob.robQ slot).valid = true) :
    (core.rob.robQ core.rob.headPtrQ).valid = true := by
  by_contra free
  rw [empty_of_head wellFormed (Bool.not_eq_true _ ▸ free)] at occupied
  cases occupied

/-- Nothing is in the reorder buffer or in the pipeline. -/
structure Idle (core : Datapath) : Prop where
  empty : ∀ slot, (core.rob.robQ slot).valid = false
  quiet : ∀ place instr, ¬ core.Carries place instr

/-- An empty reorder buffer stays empty unless decode allocates. -/
theorem empty_clock
    (empty : ∀ slot, (core.rob.robQ slot).valid = false)
    (silent : core.allocates answer = false)
    (slot : RobIdx) :
    ((core.clock answer).rob.robQ slot).valid = false := by
  by_contra occupied
  obtain ⟨_, _, allocated | before⟩ :=
    Rob.robD_valid.mp (Bool.not_eq_false _ ▸ occupied)
  · have allocates : core.allocates answer = true := allocated.1
    rw [silent] at allocates
    cases allocates
  · rw [empty] at before
    cases before

/-- An idle pipeline stays idle unless decode allocates. -/
theorem Idle.clock
    (idle : core.Idle)
    (silent : core.allocates answer = false) :
    (core.clock answer).Idle where
  empty := empty_clock idle.empty silent
  quiet place instr carries := by
    rcases carries_clock carries with
      ⟨_, allocates, _⟩ | ⟨source, _, before⟩
    · rw [silent] at allocates
      cases allocates
    · exact idle.quiet source instr before

/-- An empty reorder buffer neither commits nor flushes. -/
theorem silent_of_empty
    (empty : ∀ slot, (core.rob.robQ slot).valid = false) :
    core.rob.commitValid = false ∧ core.rob.flush = false := by
  have silent : core.rob.commitValid = false := by
    simp [Rob.commitValid, empty]
  refine ⟨silent, ?_⟩
  rw [Rob.flush, silent, Bool.false_and]

/-- Over an empty reorder buffer and an empty execute pipe only the memory
stage and the fetch path hold the pipeline. -/
theorem stall_of_empty
    (wellFormed : core.rob.WellFormed)
    (empty : ∀ slot, (core.rob.robQ slot).valid = false)
    (free :
      ∀ stage : Fin 4,
        (core.exe.exePipeQ stage.castSucc).valid = false)
    (noMem : core.stallFromMem = false) :
    core.stall answer = !answer.valid := by
  have noHazard :
      ∀ rsAddr, (core.rob.hazard rsAddr).hazard = false := by
    intro rsAddr
    rcases wellFormed.hazard_cases rsAddr with
      ⟨none, _⟩ | ⟨slot, _, writes, _⟩
    · rw [none]
      rfl
    · have occupied := (Rob.writes_iff.mp writes).2.valid
      rw [empty] at occupied
      cases occupied
  have notFull : core.rob.robFull = false := by
    simp [Rob.robFull, empty]
  have noExe : core.stallFromExe = false := by
    have unshifted : ∀ slot, (core.exe.shifted slot).valid = false := by
      intro slot
      cases slot using Fin.cases with
      | zero =>
          rfl
      | succ stage =>
          rw [Exe.shifted_succ]
          exact free stage
    rw [stallFromExe, Exe.stall]
    split
    · exact unshifted _
    · rfl
  simp [stall, hazardRs1, hazardRs2, noHazard, notFull, noExe, noMem]

/-- Only the fetch path holds an idle pipeline. -/
theorem Idle.stall_eq
    (idle : core.Idle)
    (wellFormed : core.rob.WellFormed) :
    core.stall answer = !answer.valid := by
  have free :
      ∀ stage : Fin 4,
        (core.exe.exePipeQ stage.castSucc).valid = false := by
    intro stage
    by_contra valid
    exact
      idle.quiet (.exePipe stage) _ ⟨Bool.not_eq_false _ ▸ valid, rfl⟩
  have noMem : core.stallFromMem = false := by
    have nothing : core.exeToMemQ.valid = false := by
      by_contra valid
      exact idle.quiet .exeToMem _ ⟨Bool.not_eq_false _ ▸ valid, rfl⟩
    simp [stallFromMem, MemStage.stall, MemStage.isLoad, MemStage.isStore,
      MemStage.isCollision, nothing]
  exact stall_of_empty wellFormed idle.empty free noMem

/-- The head commits only when the commit outputs say so. -/
theorem branchTaken_of_silent (silent : core.rob.commitValid = false) :
    core.commit.branchTaken = false := by
  rw [commit, Rob.commit_branchTaken, Rob.flush, silent]
  rfl

/-- Decode keeps its instruction while fetch does not answer. -/
theorem validDecode_clock_of_waits
    (unanswered : answer.valid = false)
    (silent : core.rob.commitValid = false) :
    (core.clock answer).validDecode = core.validDecode := by
  have stalls : core.stall answer = true := by
    simp [stall, unanswered]
  simp [clock, branchTaken_of_silent silent, stalls]

/-- A cycle in which the pipeline moves brings an answer to decode. -/
theorem validDecode_clock_of_moves
    (moves : core.stall answer = false)
    (silent : core.rob.commitValid = false) :
    (core.clock answer).validDecode = answer.valid := by
  simp [clock, branchTaken_of_silent silent, moves]

/-- An idle pipeline stays so while fetch does not answer. -/
theorem Idle.clock_of_unanswered
    (idle : core.Idle)
    (unanswered : answer.valid = false) :
    (core.clock answer).Idle := by
  apply idle.clock
  by_contra allocates
  have moves := (allocates_iff.mp (Bool.not_eq_false _ ▸ allocates)).1
  simp [stall, unanswered] at moves

/-- The entry at the head waits for an instruction that nothing carries. -/
structure Lost (core : Datapath) : Prop where
  waits : core.waits core.rob.headPtrQ = true
  uncarried :
    ∀ place, core.carriesFor core.rob.headPtrQ place = false

/-- Nothing is lost while every waiting entry has a carrier. -/
theorem not_lost_of_carried (carried : core.Carried) : ¬ core.Lost := by
  intro lost
  obtain ⟨place, carriesFor⟩ := carried _ lost.waits
  rw [lost.uncarried place] at carriesFor
  cases carriesFor

/-- A head that is not lost has a carrier. -/
theorem WaitsFor.exists_carrier
    {slot : RobIdx}
    {owner : Nat}
    (waitsFor : core.WaitsFor slot owner)
    (notLost : ¬ core.Lost) :
    ∃ place instr, core.Carries place instr ∧ IsOwner slot owner instr := by
  obtain ⟨rfl, waits, rfl⟩ := waitsFor
  by_contra uncarried
  refine notLost ⟨waits, fun place => ?_⟩
  by_contra carriesFor
  obtain ⟨instr, carries, isOwner⟩ :=
    carriesFor_iff.mp (Bool.not_eq_false _ ▸ carriesFor)
  exact uncarried ⟨place, instr, carries, isOwner⟩

/-- What is known of a pipeline whose head is not lost. -/
structure Orderly (core : Datapath) : Prop where
  window : core.rob.WellFormed
  shaped : core.Shaped
  notLost : ¬ core.Lost

section Run

variable {powerUp : Datapath} {answers : Nat → FetchAnswer}
  {goal : Nat → Prop} {bound start : Nat}

/-- The reorder buffer commits in the cycle. -/
def CommitsAt
    (powerUp : Datapath)
    (answers : Nat → FetchAnswer)
    (cycle : Nat) :
    Prop :=
  (powerUp.run answers cycle).rob.commitValid = true

/-- From every cycle on, the memory stage moves or the goal is reached within
so many cycles. -/
def MovesWithin
    (powerUp : Datapath)
    (answers : Nat → FetchAnswer)
    (goal : Nat → Prop)
    (bound : Nat) :
    Prop :=
  ∀ start,
    Clocked.Within
      (fun cycle =>
        (powerUp.run answers cycle).stallFromMem = false ∨ goal cycle)
      start bound

/-- In a situation that stays and in which nothing wanted is decoded, all
copies of the wanted instructions leave the pipeline. -/
theorem leaves_within
    (situation : Nat → Prop)
    (wanted : InstrData → Prop)
    (moves : powerUp.MovesWithin answers goal bound)
    (kept :
      ∀ cycle,
        situation cycle →
        ¬ goal cycle →
        goal (cycle + 1) ∨
          situation (cycle + 1) ∧
            ((powerUp.run answers cycle).allocates (answers cycle) = true →
              ¬ wanted (powerUp.run answers cycle).decoded))
    (holds : situation start)
    (needs : (powerUp.run answers start).NeedsAtMost wanted rank) :
    Clocked.Within
      (fun cycle =>
        goal cycle ∨
          situation cycle ∧
            (powerUp.run answers cycle).NeedsAtMost wanted 0)
      start (patience bound rank) := by
  induction rank generalizing start with
  | zero =>
      exact .now (.inr ⟨holds, needs⟩)
  | succ rank inductionHypothesis =>
      have step :
          ∀ cycle,
            goal cycle ∨
              situation cycle ∧
                (powerUp.run answers cycle).NeedsAtMost wanted (rank + 1) →
            ((powerUp.run answers cycle).stallFromMem = false ∨
              goal cycle ∨ ¬ Stuck (rank + 1)) →
            Clocked.Within
              (fun cycle =>
                goal cycle ∨
                  situation cycle ∧
                    (powerUp.run answers cycle).NeedsAtMost wanted 0)
              cycle (patience bound rank + 1) := by
        intro cycle state free
        by_cases reached : goal cycle
        · exact .now (.inl reached)
        · obtain ⟨holds, needs⟩ := state.resolve_left reached
          rcases kept cycle holds reached with
            reachedNext | ⟨holdsNext, old⟩
          · exact
              (Clocked.Within.now (.inl reachedNext)).later.of_le
                (Nat.succ_le_succ (Nat.zero_le _))
          · rcases needs.clock old with
              needsNext | ⟨⟨stalls, stuck⟩, _⟩
            · exact (inductionHypothesis holdsNext needsNext).later
            · rcases free with moves | reached | notStuck
              · rw [stalls] at moves
                cases moves
              · contradiction
              · contradiction
      by_cases stuck : Stuck (rank + 1)
      · have waits :=
          (moves start).keep
            (fun cycle =>
              goal cycle ∨
                situation cycle ∧
                  (powerUp.run answers cycle).NeedsAtMost wanted (rank + 1))
            (.inr ⟨holds, needs⟩)
            (by
              intro cycle state waits
              rw [not_or] at waits
              obtain ⟨holds, needs⟩ := state.resolve_left waits.2
              rcases kept cycle holds waits.2 with
                reachedNext | ⟨holdsNext, old⟩
              · exact .inl reachedNext
              · refine .inr ⟨holdsNext, ?_⟩
                rcases needs.clock old with needsNext | ⟨_, needsNext⟩
                · intro place instr carries isWanted
                  obtain ⟨lower, below, needsPlace⟩ :=
                    needsNext place instr carries isWanted
                  exact ⟨lower, Nat.le_succ_of_le below, needsPlace⟩
                · exact needsNext)
        rw [patience, if_pos stuck, Nat.add_comm]
        apply waits.bind
        rintro cycle _ ⟨moves | reached, state⟩
        · exact step cycle state (.inl moves)
        · exact step cycle state (.inr (.inl reached))
      · rw [patience, if_neg stuck]
        exact step start (.inr ⟨holds, needs⟩) (.inr (.inr stuck))

variable (commits : ∀ cycle, powerUp.CommitsAt answers cycle → goal cycle)
  (orderly : ∀ cycle, ¬ goal cycle → (powerUp.run answers cycle).Orderly)
  (moves : powerUp.MovesWithin answers goal bound)
include commits orderly moves

/-- A head that waits commits. -/
theorem commits_of_waitsFor
    {slot : RobIdx}
    {owner : Nat}
    (waitsFor : (powerUp.run answers start).WaitsFor slot owner) :
    Clocked.Within goal start (3 * bound + 7) := by
  by_cases reached : goal start
  · exact .now reached
  · have leaves :=
      leaves_within
        (fun cycle => (powerUp.run answers cycle).WaitsFor slot owner)
        (IsOwner slot owner) moves
        (fun cycle waitsFor waiting =>
          (waitsFor.clock (orderly cycle waiting).window
            (answers cycle)).imp_left (commits (cycle + 1)))
        waitsFor (needsAtMost_seven (orderly start reached).shaped)
    rw [patience_seven] at leaves
    refine leaves.imp ?_
    rintro cycle _ (reached | ⟨waitsFor, needs⟩)
    · exact reached
    · by_contra waiting
      obtain ⟨place, instr, carries, isOwner⟩ :=
        waitsFor.exists_carrier (orderly cycle waiting).notLost
      exact needs.not_carries isOwner carries

/-- An occupied reorder buffer commits. -/
theorem commits_of_occupied
    (occupied :
      ((powerUp.run answers start).rob.robQ
        (powerUp.run answers start).rob.headPtrQ).valid = true) :
    Clocked.Within goal start (3 * bound + 7) := by
  cases completed :
      ((powerUp.run answers start).rob.robQ
        (powerUp.run answers start).rob.headPtrQ).completed with
  | true =>
      have committing := Rob.commitValid_iff.mpr ⟨occupied, completed⟩
      exact .now (commits start committing)
  | false =>
      exact
        commits_of_waitsFor commits orderly moves
          ⟨rfl, waits_iff.mpr ⟨occupied, completed⟩, rfl⟩

/-- After an allocation the reorder buffer commits. -/
theorem commits_of_allocates
    (allocated :
      (powerUp.run answers start).allocates (answers start) = true) :
    Clocked.Within goal start (3 * bound + 8) := by
  by_cases reached : goal start
  · exact .now reached
  · by_cases reachedNext : goal (start + 1)
    · exact
        (Clocked.Within.now reachedNext).later.of_le
          (Nat.succ_le_succ (Nat.zero_le _))
    · have waits :
          (powerUp.run answers (start + 1)).waits
            (powerUp.run answers start).decoded.robIdx = true :=
        waits_of_allocates (orderly start reached).window allocated
      have occupied :=
        head_occupied (orderly (start + 1) reachedNext).window
          (waits_iff.mp waits).1
      exact (commits_of_occupied commits orderly moves occupied).later

/-- An empty reorder buffer is followed by an idle pipeline, if it does not
lead to a commit. -/
theorem drains_within
    (empty :
      ∀ slot, ((powerUp.run answers start).rob.robQ slot).valid = false)
    {after : Nat}
    (onward :
      ∀ cycle,
        start ≤ cycle →
        (powerUp.run answers cycle).Idle →
        Clocked.Within goal cycle after)
    (enough : 3 * bound + 8 ≤ after) :
    Clocked.Within goal start (3 * bound + 7 + after) := by
  by_cases reached : goal start
  · exact .now reached
  · have movesOrAllocates :
        powerUp.MovesWithin answers
          (fun cycle =>
            goal cycle ∨
              (powerUp.run answers cycle).allocates (answers cycle) = true)
          bound :=
      fun begin => (moves begin).imp fun _ _ => Or.imp_right Or.inl
    have leaves :=
      leaves_within
        (fun cycle =>
          ∀ slot, ((powerUp.run answers cycle).rob.robQ slot).valid = false)
        (fun _ => True) movesOrAllocates
        (fun cycle empty waiting => by
          rw [not_or, Bool.not_eq_true] at waiting
          refine .inr ⟨empty_clock empty waiting.2, ?_⟩
          rw [waiting.2]
          exact fun allocates => Bool.noConfusion allocates)
        empty (needsAtMost_seven (orderly start reached).shaped)
    rw [patience_seven] at leaves
    apply leaves.bind
    rintro cycle begun ((reached | allocated) | ⟨empty, needs⟩)
    · exact .now reached
    · exact
        (commits_of_allocates commits orderly moves allocated).of_le enough
    · exact
        onward cycle begun
          ⟨empty, fun _ _ => needs.not_carries trivial⟩

variable {fetchBound : Nat}
  (fetches :
    ∀ start,
      Clocked.Within
        (fun cycle => (answers cycle).valid = true ∨ goal cycle)
        start fetchBound)
include fetches

/-- An instruction behind an idle pipeline is decoded. -/
theorem commits_of_decoded
    (idle : (powerUp.run answers start).Idle)
    (decoded : (powerUp.run answers start).validDecode = true) :
    Clocked.Within goal start (fetchBound + (3 * bound + 8)) := by
  have waits :=
    (fetches start).keep
      (fun cycle =>
        goal cycle ∨
          (powerUp.run answers cycle).Idle ∧
            (powerUp.run answers cycle).validDecode = true)
      (.inr ⟨idle, decoded⟩)
      (by
        intro cycle state waits
        rw [not_or, Bool.not_eq_true] at waits
        obtain ⟨idle, decoded⟩ := state.resolve_left waits.2
        have kept :=
          validDecode_clock_of_waits waits.1 (silent_of_empty idle.empty).1
        exact .inr ⟨idle.clock_of_unanswered waits.1, kept.trans decoded⟩)
  apply waits.bind
  rintro cycle _ ⟨answered | reached, state⟩
  · by_cases reached : goal cycle
    · exact .now reached
    · obtain ⟨idle, decoded⟩ := state.resolve_left reached
      have onward :
          (powerUp.run answers cycle).stall (answers cycle) = false := by
        rw [idle.stall_eq (orderly cycle reached).window, answered]
        rfl
      have allocated :=
        allocates_iff.mpr ⟨onward, decoded, (silent_of_empty idle.empty).2⟩
      exact commits_of_allocates commits orderly moves allocated
  · exact .now reached

/-- An idle pipeline waits for fetch twice at most. -/
theorem commits_of_idle (idle : (powerUp.run answers start).Idle) :
    Clocked.Within goal start
      (fetchBound + (fetchBound + (3 * bound + 9))) := by
  have waits :=
    (fetches start).keep
      (fun cycle => goal cycle ∨ (powerUp.run answers cycle).Idle)
      (.inr idle)
      (by
        intro cycle state waits
        rw [not_or, Bool.not_eq_true] at waits
        have idle := state.resolve_left waits.2
        exact .inr (idle.clock_of_unanswered waits.1))
  apply waits.bind
  rintro cycle _ ⟨answered | reached, state⟩
  · by_cases reached : goal cycle
    · exact .now reached
    · have idle := state.resolve_left reached
      have onward :
          (powerUp.run answers cycle).stall (answers cycle) = false := by
        rw [idle.stall_eq (orderly cycle reached).window, answered]
        rfl
      have noFlush := (silent_of_empty idle.empty).2
      cases decoded : (powerUp.run answers cycle).validDecode with
      | true =>
          have allocated := allocates_iff.mpr ⟨onward, decoded, noFlush⟩
          exact
            (commits_of_allocates commits orderly moves allocated).of_le
              (by omega)
      | false =>
          have silent :
              (powerUp.run answers cycle).allocates (answers cycle) =
                false := by
            by_contra allocates
            have isDecoded :=
              (allocates_iff.mp (Bool.not_eq_false _ ▸ allocates)).2.1
            rw [decoded] at isDecoded
            cases isDecoded
          have decodedNext :
              (powerUp.run answers (cycle + 1)).validDecode = true :=
            (validDecode_clock_of_moves onward
              (silent_of_empty idle.empty).1).trans answered
          have idleNext : (powerUp.run answers (cycle + 1)).Idle :=
            idle.clock silent
          exact
            (commits_of_decoded commits orderly moves fetches idleNext
              decodedNext).later
  · exact .now reached

/--
From every cycle on, the reorder buffer commits or the goal is reached after a
bounded number of cycles, if fetch always answers within a bound, the memory
stage always moves within a bound, and the head is never lost.
-/
theorem commits_or_within (start : Nat) :
    Clocked.Within goal start (6 * bound + 2 * fetchBound + 16) := by
  by_cases reached : goal start
  · exact .now reached
  · cases head :
        ((powerUp.run answers start).rob.robQ
          (powerUp.run answers start).rob.headPtrQ).valid with
    | true =>
        exact
          (commits_of_occupied commits orderly moves head).of_le (by omega)
    | false =>
        have empty := empty_of_head (orderly start reached).window head
        exact
          (drains_within commits orderly moves empty
            (fun _ _ idle =>
              commits_of_idle commits orderly moves fetches idle)
            (by omega)).of_le (by omega)

end Run

end Datapath

end Tartaruga
