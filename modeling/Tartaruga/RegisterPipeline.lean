import Tartaruga.CommitChain
import Tartaruga.InFlightIdentity
import Tartaruga.RegisterPrograms
import Tartaruga.SingleDelivery

namespace Tartaruga

/-!
# The pipeline under programs on registers

Without loads and stores the memory stage never stalls and no instruction is
copied.  If no multiplication is in the reorder buffer when it is flushed, what
the flush leaves in the pipeline is gone before it can meet an instruction that
was allocated after it.
-/

/-- The entry belongs to a multiplication. -/
def RobEntry.isMul (entry : RobEntry) : Bool :=
  (decoder entry.pc entry.instr 0 0).isMul

namespace Datapath

variable {core : Datapath} {answer : FetchAnswer} {instr : InstrData}
  {place : Place} {slot : RobIdx} {word : Bus32 → Bus32} {expected : Bus32}

/-- Every carried instruction is a word of the program, decoded. -/
def OfProgram (core : Datapath) (word : Bus32 → Bus32) : Prop :=
  ∀ place instr,
    core.Carries place instr →
    ∃ pc robIdx idDecode, instr = decoder pc (word pc) robIdx idDecode

/-- Decode takes its words from the program. -/
theorem ofProgram_clock
    (path : core.OnPath word expected)
    (ofProgram : core.OfProgram word) :
    (core.clock answer).OfProgram word := by
  intro place instr carries
  rcases carries_clock carries with
    ⟨_, allocated, rfl⟩ | ⟨source, _, before⟩
  · have isWord := (path.decode (allocates_iff.mp allocated).2.1).2
    refine ⟨core.pcDecode, core.rob.robEntryAlloc, core.idDecode, ?_⟩
    rw [← isWord]
    rfl
  · exact ofProgram source instr before

theorem OfProgram.shaped (ofProgram : core.OfProgram word) : core.Shaped := by
  intro place instr carries
  obtain ⟨pc, robIdx, idDecode, rfl⟩ := ofProgram place instr carries
  exact decoder_shape pc (word pc) robIdx idDecode

theorem OfProgram.registerOnly
    (ofProgram : core.OfProgram word)
    (program : RegisterProgram word)
    (carries : core.Carries place instr) :
    instr.RegisterOnly := by
  obtain ⟨pc, robIdx, idDecode, rfl⟩ := ofProgram place instr carries
  exact program.registerOnly pc robIdx idDecode

/-- An instruction on registers is no load. -/
theorem wbOrigin_ne_mem (only : instr.RegisterOnly) :
    instr.wbOrigin ≠ .mem := by
  rcases only.origin with isAlu | ⟨isPc4, _⟩
  · rw [isAlu]
    nofun
  · rw [isPc4]
    nofun

/-- The memory stage never stalls. -/
theorem OfProgram.stallFromMem
    (ofProgram : core.OfProgram word)
    (program : RegisterProgram word) :
    core.stallFromMem = false := by
  cases valid : core.exeToMemQ.valid with
  | false =>
      simp [Datapath.stallFromMem, MemStage.stall, MemStage.isCollision,
        MemStage.isLoad, MemStage.isStore, valid]
  | true =>
      have carries : core.Carries .exeToMem core.exeToMemQ.instr :=
        ⟨valid, rfl⟩
      have only := ofProgram.registerOnly program carries
      have noLoad : (core.exeToMemQ.instr.wbOrigin == .mem) = false :=
        beq_false_of_ne (wbOrigin_ne_mem only)
      have noStore : core.exeToMemQ.instr.storeToMem = false := only.noStore
      simp [Datapath.stallFromMem, MemStage.stall, MemStage.isCollision,
        MemStage.isLoad, MemStage.isStore, noLoad, noStore]

/-- No clock edge keeps a copy of what it passes on. -/
theorem OfProgram.keepsCopy
    (ofProgram : core.OfProgram word)
    (program : RegisterProgram word) :
    core.keepsCopy = false := by
  have moves := ofProgram.stallFromMem program
  have noLoad : MemStage.isLoad core.exeToMemQ = false := by
    by_contra isLoad
    simp only [MemStage.isLoad, Bool.not_eq_false, Bool.and_eq_true,
      beq_iff_eq] at isLoad
    have carries : core.Carries .exeToMem core.exeToMemQ.instr :=
      ⟨isLoad.2, rfl⟩
    exact
      wbOrigin_ne_mem (ofProgram.registerOnly program carries) isLoad.1
  simp [Datapath.keepsCopy, bypassedLoadStalls, mulHeld, noLoad, moves]

/-- Only multiplications travel through the execute pipe. -/
def PipesMul (core : Datapath) : Prop :=
  ∀ stage instr, core.Carries (.exePipe stage) instr → instr.isMul = true

theorem pipesMul_clock (shaped : core.Shaped) (pipesMul : core.PipesMul) :
    (core.clock answer).PipesMul := by
  intro stage instr carries
  rcases carries_clock carries with
    ⟨elsewhere, _, _⟩ | ⟨source, feeds, before⟩
  · cases elsewhere
  · cases feeds with
    | enter stage entry =>
        have shape := shaped .decodeToExe instr before
        obtain ⟨_, rfl⟩ := before
        exact (Exe.isMul_of_entrySlot shape entry).1
    | advance stage =>
        exact pipesMul stage.castSucc instr before

/-- Every carried instruction waits for its completion. -/
def Waiting (core : Datapath) : Prop :=
  ∀ place instr,
    core.Carries place instr → core.waits instr.robIdx = true

/-- A flush has emptied the reorder buffer, and what is still carried leaves
before another instruction comes in. -/
structure Drains (core : Datapath) : Prop where
  empty : ∀ slot, (core.rob.robQ slot).valid = false
  leaving :
    ∀ place instr,
      core.Carries place instr →
      place = .memToWb ∨ place = .exeToMem ∧ core.validDecode = false

theorem waiting_reset (core : Datapath) : core.reset.Waiting :=
  fun _ _ carries => (not_carries_reset core carries).elim

/-- No index in use is handed out. -/
theorem noReuse
    (wellFormed : core.rob.WellFormed)
    (phase : core.Waiting ∨ core.Drains) :
    core.reuses answer = false := by
  by_contra reused
  simp only [Datapath.reuses, Bool.not_eq_false, Bool.and_eq_true,
    List.any_eq_true, beq_iff_eq] at reused
  obtain ⟨allocated, place, upstream, valid, isTail⟩ := reused
  have carries : core.Carries place (core.register place).2 := ⟨valid, rfl⟩
  rcases phase with waiting | drains
  · have waits := waiting place _ carries
    have inUse := (waits_iff.mp waits).1
    rw [isTail, wellFormed.tail_free] at inUse
    cases inUse
  · rcases drains.leaving place _ carries with isLast | ⟨_, undecoded⟩
    · rw [isLast] at upstream
      simp [Datapath.upstream] at upstream
    · have decoded := (allocates_iff.mp allocated).2.1
      rw [undecoded] at decoded
      cases decoded

/-- A newly allocated instruction waits. -/
theorem waits_of_allocates
    (wellFormed : core.rob.WellFormed)
    (allocated : core.allocates answer = true) :
    (core.clock answer).waits core.decoded.robIdx = true := by
  have allocates :
      core.rob.allocates (core.robAlloc answer) core.decoded.robIdx :=
    ⟨allocated, decoded_robIdx⟩
  have free : (core.rob.robQ core.decoded.robIdx).valid = false := by
    rw [decoded_robIdx]
    exact wellFormed.tail_free
  have notRetired : ¬ core.rob.retires core.decoded.robIdx := by
    rintro ⟨commits, isHead⟩
    have inUse := (Rob.commitValid_iff.mp commits).1
    rw [← isHead, free] at inUse
    cases inUse
  have notWritten : ¬ core.rob.writesBack core.robWb core.decoded.robIdx := by
    intro written
    have valid := Rob.writesBack_valid written
    rw [free] at valid
    cases valid
  have valid :
      (core.rob.robD (core.robAlloc answer) core.robWb
        core.decoded.robIdx).valid = true :=
    Rob.robD_valid.mpr
      ⟨(allocates_iff.mp allocated).2.2, notRetired, .inl allocates⟩
  have completed :
      (core.rob.robD (core.robAlloc answer) core.robWb
        core.decoded.robIdx).completed = false := by
    rw [Rob.robD_completed, if_neg notWritten, if_pos allocates]
  exact waits_iff.mpr ⟨valid, completed⟩

/-- Waiting instructions in different registers have different indices. -/
theorem place_eq_of_robIdx
    {first second : Place}
    {other : InstrData}
    (owned : core.Owned)
    (distinct : core.Distinct)
    (carriesFirst : core.Carries first instr)
    (carriesSecond : core.Carries second other)
    (valid : (core.rob.robQ instr.robIdx).valid = true)
    (sameIdx : instr.robIdx = other.robIdx) :
    first = second := by
  have own := owned first instr carriesFirst valid
  have ownOther := owned second other carriesSecond (sameIdx ▸ valid)
  rw [← sameIdx, own] at ownOther
  exact distinct.unique carriesFirst carriesSecond
    (congrArg RobOwn.kanataId ownOther)

/-- An instruction that moves on goes on waiting. -/
theorem waits_of_feeds
    {source target : Place}
    (owned : core.Owned)
    (distinct : core.Distinct)
    (noFlush : core.rob.flush = false)
    (notAllocated :
      ¬ core.rob.allocates (core.robAlloc answer) instr.robIdx)
    (carries : core.Carries source instr)
    (feeds : core.Feeds source target)
    (waits : core.waits instr.robIdx = true) :
    (core.clock answer).waits instr.robIdx = true := by
  have notWritten : ¬ core.rob.writesBack core.robWb instr.robIdx := by
    rintro ⟨accepted, sameIdx⟩
    simp only [Rob.acceptsWb, Bool.and_eq_true] at accepted
    have last : core.Carries .memToWb core.memToWbQ.instr :=
      ⟨accepted.1, rfl⟩
    exact feeds.source_ne_memToWb
      (place_eq_of_robIdx owned distinct carries last (waits_iff.mp waits).1
        sameIdx)
  exact (waits_clock_iff notAllocated).mpr ⟨waits, noFlush, notWritten⟩

/-- Without a flush everything goes on waiting. -/
theorem waiting_clock
    (wellFormed : core.rob.WellFormed)
    (owned : core.Owned)
    (distinct : core.Distinct)
    (waiting : core.Waiting)
    (noFlush : core.rob.flush = false) :
    (core.clock answer).Waiting := by
  intro place instr carries
  rcases carries_clock carries with
    ⟨_, allocated, rfl⟩ | ⟨source, feeds, before⟩
  · exact waits_of_allocates wellFormed allocated
  · have notAllocated :
        ¬ core.rob.allocates (core.robAlloc answer) instr.robIdx :=
      fun allocates =>
        robIdx_ne_tail (noReuse wellFormed (.inl waiting)) allocates.1
          feeds.source_ne_memToWb before allocates.2
    exact waits_of_feeds owned distinct noFlush notAllocated before feeds
      (waiting source instr before)

/-- A flush is not taken while a multiplication is in the reorder buffer. -/
def FlushesNoMul (core : Datapath) : Prop :=
  core.rob.flush = true →
    ∀ slot,
      (core.rob.robQ slot).valid = true →
      (core.rob.robQ slot).isMul = false

/-- A carried instruction is recorded as the multiplication it is. -/
theorem isMul_of_carries
    (ofProgram : core.OfProgram word)
    (owned : core.Owned)
    (carries : core.Carries place instr)
    (valid : (core.rob.robQ instr.robIdx).valid = true) :
    (core.rob.robQ instr.robIdx).isMul = instr.isMul := by
  have own := owned place instr carries valid
  obtain ⟨pc, robIdx, idDecode, decoded⟩ := ofProgram place instr carries
  have isWord : instr.instr = word pc := by
    rw [decoded, decoder_instr]
  have sameInstr : (core.rob.robQ instr.robIdx).instr = word pc :=
    (congrArg RobOwn.instr own).trans isWord
  have sameMul :
      ∀ otherPc, (decoder otherPc (word pc) 0 0).isMul = instr.isMul := by
    intro otherPc
    rw [decoded, decoder_relabelled pc (word pc) robIdx idDecode otherPc,
      InstrData.relabelled_isMul]
  rw [RobEntry.isMul, sameInstr]
  exact sameMul _

/-- When a flush finds no multiplication, none is carried. -/
theorem notMul_of_flush
    (ofProgram : core.OfProgram word)
    (owned : core.Owned)
    (waiting : core.Waiting)
    (noMul : core.FlushesNoMul)
    (flushes : core.rob.flush = true)
    (carries : core.Carries place instr) :
    instr.isMul = false := by
  have inUse := (waits_iff.mp (waiting place instr carries)).1
  exact
    (isMul_of_carries ofProgram owned carries inUse).symm.trans
      (noMul flushes _ inUse)

/-- Execute stalls behind an instruction at the end of its pipe. -/
theorem carries_of_stallFromExe
    (shape : core.decodeToExeQ.instr.Shape)
    (stalls : core.stallFromExe = true) :
    core.Carries (.exePipe 3) (core.exe.exePipeQ 3).instr := by
  simp only [stallFromExe] at stalls
  rcases shape.stages with ⟨_, isMult⟩ | ⟨_, single⟩
  · rw [Exe.stall_mult isMult] at stalls
    cases stalls
  · rw [Exe.stall_default single] at stalls
    exact ⟨stalls, rfl⟩

/-- A flush that finds no multiplication leaves at most one instruction in
each of the last two registers. -/
theorem drains_of_flush
    (program : RegisterProgram word)
    (ofProgram : core.OfProgram word)
    (owned : core.Owned)
    (pipesMul : core.PipesMul)
    (waiting : core.Waiting)
    (noMul : core.FlushesNoMul)
    (flushes : core.rob.flush = true) :
    (core.clock answer).Drains := by
  have taken : core.commit.branchTaken = true :=
    Rob.commit_branchTaken.trans flushes
  have undecoded : (core.clock answer).validDecode = false := by
    simp only [clock, taken, if_true]
  have noMulCarried :
      ∀ {place instr},
        core.Carries place instr → instr.isMul = true → False := by
    intro place instr carries isMul
    have notMul :=
      notMul_of_flush ofProgram owned waiting noMul flushes carries
    rw [isMul] at notMul
    cases notMul
  have notPiped :
      ∀ {stage instr}, ¬ core.Carries (.exePipe stage) instr :=
    fun carries => noMulCarried carries (pipesMul _ _ carries)
  constructor
  · intro slot
    by_contra valid
    have noFlush := (Rob.robD_valid.mp (Bool.not_eq_false _ ▸ valid)).1
    rw [flushes] at noFlush
    cases noFlush
  · intro place instr carries
    rcases carries_clock carries with
      ⟨_, allocated, _⟩ | ⟨source, feeds, before⟩
    · have noFlush := (allocates_iff.mp allocated).2.2
      rw [flushes] at noFlush
      cases noFlush
    · have shape := ofProgram.shaped source instr before
      cases feeds with
      | holdExe held =>
          obtain ⟨_, rfl⟩ := before
          rcases held with fromExe | fromMem
          · exact (notPiped (carries_of_stallFromExe shape fromExe)).elim
          · rw [ofProgram.stallFromMem program] at fromMem
            cases fromMem
      | enter stage entry =>
          have carriesMul := before
          obtain ⟨_, rfl⟩ := before
          exact
            (noMulCarried carriesMul
              (Exe.isMul_of_entrySlot shape entry).1).elim
      | advance stage =>
          exact (notPiped before).elim
      | leave _ =>
          exact (notPiped before).elim
      | single _ _ _ =>
          exact .inr ⟨rfl, undecoded⟩
      | holdMem _ =>
          exact .inr ⟨rfl, undecoded⟩
      | finish _ =>
          exact .inl rfl

/-- What is left of a flush leaves, and then everything carried is waiting. -/
theorem drains_clock
    (wellFormed : core.rob.WellFormed)
    (noMem : core.stallFromMem = false)
    (drains : core.Drains) :
    (core.clock answer).Waiting ∨ (core.clock answer).Drains := by
  have leaves :
      ∀ {source target instr},
        core.Carries source instr →
        core.Feeds source target →
        source = .exeToMem ∧ target = .memToWb ∧
          core.validDecode = false := by
    intro source target instr carries feeds
    rcases drains.leaving source instr carries with
      isLast | ⟨rfl, undecoded⟩
    · exact (feeds.source_ne_memToWb isLast).elim
    · cases feeds with
      | holdMem stalls =>
          rw [noMem] at stalls
          cases stalls
      | finish _ =>
          exact ⟨rfl, rfl, undecoded⟩
  cases last : core.exeToMemQ.valid with
  | true =>
      have undecoded : core.validDecode = false := by
        rcases drains.leaving .exeToMem _ ⟨last, rfl⟩ with
          elsewhere | ⟨_, undecoded⟩
        · cases elsewhere
        · exact undecoded
      have notAllocated : core.allocates answer ≠ true := by
        intro allocated
        have decoded := (allocates_iff.mp allocated).2.1
        rw [undecoded] at decoded
        cases decoded
      right
      constructor
      · intro slot
        by_contra valid
        rcases (Rob.robD_valid.mp (Bool.not_eq_false _ ▸ valid)).2.2 with
          allocates | validBefore
        · exact notAllocated allocates.1
        · rw [drains.empty] at validBefore
          cases validBefore
      · intro place instr carries
        rcases carries_clock carries with
          ⟨_, allocated, _⟩ | ⟨source, feeds, before⟩
        · exact (notAllocated allocated).elim
        · exact .inl (leaves before feeds).2.1
  | false =>
      left
      intro place instr carries
      rcases carries_clock carries with
        ⟨_, allocated, rfl⟩ | ⟨source, feeds, before⟩
      · exact waits_of_allocates wellFormed allocated
      · obtain ⟨rfl, _, _⟩ := leaves before feeds
        obtain ⟨valid, _⟩ := before
        change core.exeToMemQ.valid = true at valid
        rw [last] at valid
        cases valid

/-- The invariants of the pipeline that do not speak about values. -/
structure Pipelined (core : Datapath) (word : Bus32 → Bus32) : Prop where
  wellFormed : core.rob.WellFormed
  numbered : core.DecodeNumbered
  ofProgram : core.OfProgram word
  pipesMul : core.PipesMul
  owned : core.Owned
  distinct : core.Distinct
  phase : core.Waiting ∨ core.Drains

theorem pipelined_reset (core : Datapath) (word : Bus32 → Bus32) :
    core.reset.Pipelined word where
  wellFormed := Rob.wellFormed_reset core.rob
  numbered := fun valid => by cases valid
  ofProgram := fun _ _ carries => (not_carries_reset core carries).elim
  pipesMul := fun _ _ carries => (not_carries_reset core carries).elim
  owned := owned_reset core
  distinct := distinct_reset core
  phase := .inl (waiting_reset core)

/-- A clock edge that flushes no multiplication keeps the pipeline in order. -/
theorem pipelined_clock
    (program : RegisterProgram word)
    (path : core.OnPath word expected)
    (noMul : core.FlushesNoMul)
    (pipelined : core.Pipelined word) :
    (core.clock answer).Pipelined word := by
  obtain ⟨wellFormed, numbered, ofProgram, pipesMul, owned, distinct,
    phase⟩ := pipelined
  have noMem := ofProgram.stallFromMem program
  have next : (core.clock answer).Waiting ∨ (core.clock answer).Drains := by
    rcases phase with waiting | drains
    · cases flushes : core.rob.flush with
      | true =>
          exact .inr
            (drains_of_flush program ofProgram owned pipesMul waiting noMul
              flushes)
      | false =>
          exact .inl (waiting_clock wellFormed owned distinct waiting flushes)
    · exact drains_clock wellFormed noMem drains
  exact {
    wellFormed := rob_wellFormed_clock wellFormed
    numbered := decodeNumbered_clock numbered
    ofProgram := ofProgram_clock path ofProgram
    pipesMul := pipesMul_clock ofProgram.shaped pipesMul
    owned := owned_clock owned (noReuse wellFormed phase)
    distinct :=
      distinct_clock (ofProgram.keepsCopy program) ofProgram.shaped numbered
        distinct
    phase := next
  }

end Datapath

end Tartaruga
