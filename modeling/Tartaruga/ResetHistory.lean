import Tartaruga.StaleResponses
import Tartaruga.RegisterFile

namespace Tartaruga

/-!
# Reset erases history

Two cores with the same memory run alike after reset, whatever they powered up
with, as long as the places that reset leaves alone are not looked at: x31 is
read before it could have been written, and a stale store-buffer index names a
store that lost its owner.  The response pipe drains while the first line of
instructions is fetched.
-/

namespace DmemWrapper

/-- The calls of `write_mem` at the next edge, in their order. -/
def writeMemCalls (wrapper : DmemWrapper) : List (Bus32 × Bus32) :=
  if wrapper.served.valid && wrapper.served.we then
    (List.finRange 4).map fun word =>
      (wrapper.served.addr + BitVec.ofNat 32 (word.val * 4),
        wrapper.served.dataWr word)
  else
    []

/-- The calls make the memory what it is after the edge. -/
theorem memoryD_eq_calls (wrapper : DmemWrapper) (memory : Memory) :
    wrapper.memoryD memory =
      wrapper.writeMemCalls.foldl
        (fun current call => current.writeMem call.1 call.2) memory := by
  simp only [memoryD, writeMemCalls]
  split
  · rw [List.foldl_map]
    rfl
  · rfl

end DmemWrapper

namespace MemStage

variable {stage : MemStage} {age : Nat} {exeToMem : ExeToMem}
  {input : MemInput}

/-- Nothing has been asked of the stage since a reset `age` cycles ago. -/
structure Quiet (stage : MemStage) (age : Nat) : Prop where
  slots : ∀ slot, (stage.storeBuffer.storeBufferQ slot).valid = false
  state : stage.dcache.state = .idle
  sets : ∀ set, (stage.dcache.cacheMem set).valid = false
  requests : ∀ request, (stage.dmemWrapper.reqPipe request).valid = false
  responses :
    ∀ response : Fin 5,
      response.val < age →
      (stage.dmemWrapper.rspPipe response).valid = false

theorem quiet_reset (stage : MemStage) : stage.reset.Quiet 0 where
  slots := fun _ => rfl
  state := rfl
  sets := fun _ => rfl
  requests := fun _ => rfl
  responses := fun _ before => (Nat.not_lt_zero _ before).elim

section Quiet

variable (quiet : stage.Quiet age)
include quiet

theorem Quiet.sbRspValid : stage.sbRspValid = false := by
  simp only [MemStage.sbRspValid, StoreBuffer.rspValid,
    StoreBuffer.headEntry, quiet.slots, Bool.false_and]

variable (idle : exeToMem.valid = false)
include idle

/-- Nothing is asked of the cache. -/
theorem Quiet.dcacheRequest_valid :
    (stage.dcacheRequest exeToMem).valid = false := by
  simp only [dcacheRequest, isLoad, idle, quiet.sbRspValid, Bool.and_false,
    Bool.or_false]

/-- A quiet stage does not notice what is in the response pipe. -/
theorem Quiet.cacheBlind (rest : Leftovers) :
    stage.CacheBlind rest exeToMem := by
  have silent := quiet.dcacheRequest_valid idle
  have state := quiet.state
  constructor
  · simp only [dcacheReady, Dcache.ready, dcacheRequest_withLeftovers, silent]
    rfl
  · simp only [dmemRequest, Dcache.memReq, dcacheRequest_withLeftovers]
    simp [withLeftovers, state, silent]
  · simp [Dcache.clock, Dcache.nextState, Dcache.lineD, state, silent]

/-- A quiet stage stays quiet. -/
theorem Quiet.clock (input : MemInput) :
    (stage.clock exeToMem input).Quiet (age + 1) := by
  have silent := quiet.dcacheRequest_valid idle
  have state := quiet.state
  constructor
  · intro slot
    rw [← Bool.not_eq_true]
    intro valid
    rcases (StoreBuffer.storeBufferD_valid.mp valid).2 with filled | before
    · have present := filled.1
      simp [StoreBuffer.inserts, storeBufferInput, isStore, idle] at present
    · rw [quiet.slots] at before
      cases before
  · change stage.dcache.nextState _ _ = _
    simp [Dcache.nextState, state, silent]
  · intro set
    change (Function.update stage.dcache.cacheMem _ _ set).valid = false
    rw [Function.update_apply]
    split
    · simp only [Dcache.lineD, state, silent]
      exact quiet.sets _
    · exact quiet.sets set
  · intro request
    cases request using Fin.cases with
    | zero =>
        change (stage.dmemRequest exeToMem).valid = false
        simp [dmemRequest, Dcache.memReq, state, silent]
    | succ request =>
        exact
          (congrArg MemRequest.valid
            (DmemWrapper.reqPipe_succ _ _ _ request)).trans
            (quiet.requests _)
  · intro response young
    cases response using Fin.cases with
    | zero =>
        change (stage.dmemWrapper.rspPipeLoad stage.memory).valid = false
        rw [DmemWrapper.rspPipeLoad_valid]
        exact quiet.requests 4
    | succ response =>
        have before : response.castSucc.val < age :=
          Nat.lt_of_succ_lt_succ young
        exact
          (congrArg MemResponse.valid
            (DmemWrapper.rspPipe_succ _ _ _ response)).trans
            (quiet.responses _ before)

end Quiet

/-- After five quiet cycles no leftover response is valid any more. -/
theorem Quiet.settled
    {rest : Leftovers}
    (quiet : stage.Quiet 5)
    (quietOther : (stage.withLeftovers rest).Quiet 5) :
    stage.Settled rest where
  valid := fun response =>
    (quietOther.responses response response.isLt).trans
      (quiet.responses response response.isLt).symm
  data := fun response valid => by
    rw [quiet.responses response response.isLt] at valid
    cases valid
  loadLine := fun loads => by
    rw [quiet.state] at loads
    cases loads
  cached := fun set valid => by
    rw [quiet.sets] at valid
    cases valid
  written := fun request valid => by
    rw [quiet.requests] at valid
    cases valid

end MemStage

namespace Datapath

variable {core : Datapath} {answer : FetchAnswer} {age : Nat}

/-- Nothing has been fetched since a reset `age` cycles ago. -/
structure Quiet (core : Datapath) (age : Nat) : Prop where
  decode : core.validDecode = false
  carried : ∀ place instr, ¬ core.Carries place instr
  entries : ∀ slot, (core.rob.robQ slot).valid = false
  memory : core.mem.Quiet age

theorem quiet_reset (core : Datapath) : core.reset.Quiet 0 where
  decode := rfl
  carried := fun _ _ => not_carries_reset core
  entries := fun _ => rfl
  memory := MemStage.quiet_reset core.mem

theorem Quiet.exeToMemQ_valid (quiet : core.Quiet age) :
    core.exeToMemQ.valid = false :=
  Bool.eq_false_iff.mpr fun valid =>
    quiet.carried .exeToMem _ ⟨valid, rfl⟩

/-- Nothing happens until the first instruction is fetched. -/
theorem Quiet.clock
    (quiet : core.Quiet age)
    (unanswered : answer.valid = false) :
    (core.clock answer).Quiet (age + 1) := by
  have stalls : core.stall answer = true := by
    simp [stall, unanswered]
  have notAllocates : ¬ core.allocates answer = true := by
    rw [allocates_iff, stalls]
    simp
  constructor
  · simp only [Datapath.clock, stalls, quiet.decode]
    split <;> rfl
  · intro place instr carries
    rcases carries_clock carries with ⟨_, allocated, _⟩ | ⟨source, _, before⟩
    · exact notAllocates allocated
    · exact quiet.carried source instr before
  · intro slot
    rw [← Bool.not_eq_true]
    intro valid
    rcases (Rob.robD_valid.mp valid).2.2 with allocated | before
    · exact notAllocates allocated.1
    · rw [quiet.entries] at before
      cases before
  · exact quiet.memory.clock quiet.exeToMemQ_valid _

end Datapath

namespace Core

/-- The instruction cache is empty, and no request of the last `age` cycles has
been answered. -/
structure Cold (core : Core) (age : Nat) : Prop where
  sets : ∀ set way, (core.icache.cacheMem set way).valid = false
  requests :
    ∀ request : Fin 5,
      age ≤ request.val →
      (core.imemWrapper.reqPipe request).valid = false
  responses : ∀ response, (core.imemWrapper.rspPipe response).valid = false

theorem cold_reset (core : Core) : core.reset.Cold 0 where
  sets := fun _ _ => rfl
  requests := fun _ _ => rfl
  responses := fun _ => rfl

/-- A cold instruction cache has nothing to show. -/
theorem Cold.answer_valid
    {core : Core}
    {age : Nat}
    (cold : core.Cold age) :
    core.answer.valid = false := by
  simp [answer, Icache.hit, Icache.hitWay, cold.sets]

/-- The cache stays cold until the first request reaches the memory. -/
theorem Cold.clock
    {core : Core}
    {age : Nat}
    (cold : core.Cold age)
    (early : age ≤ 4) :
    core.clock.Cold (age + 1) := by
  have unanswered : core.imemWrapper.response.valid = false :=
    cold.responses 4
  constructor
  · intro set way
    change (core.icache.cacheMemD _ set way).valid = false
    simp only [Icache.cacheMemD, unanswered]
    exact cold.sets set way
  · intro request young
    cases request using Fin.cases with
    | zero =>
        exact (Nat.not_succ_le_zero age young).elim
    | succ request =>
        have before : age ≤ request.castSucc.val :=
          Nat.le_of_succ_le_succ young
        match request with
        | 0 | 1 | 2 | 3 => exact cold.requests _ before
  · intro response
    have unserved : (core.imemWrapper.reqPipe 4).valid = false :=
      cold.requests 4 early
    match response with
    | 0 | 1 | 2 | 3 | 4 =>
        simp [Core.clock, ImemWrapper.clock, ImemWrapper.rspPipeD,
          ImemWrapper.rspValidShift, unserved, cold.responses]

/-- Every run begins with five cycles in which nothing is fetched. -/
theorem run_quiet
    (powerUp : Core)
    {cycle : Nat}
    (early : cycle ≤ 5) :
    (powerUp.run cycle).Cold cycle ∧
      (powerUp.run cycle).datapath.Quiet cycle := by
  induction cycle with
  | zero =>
      exact ⟨cold_reset powerUp, Datapath.quiet_reset powerUp.datapath⟩
  | succ cycle inductionHypothesis =>
      obtain ⟨cold, quiet⟩ :=
        inductionHypothesis (Nat.le_of_succ_le early)
      exact
        ⟨cold.clock (Nat.le_of_succ_le_succ early),
          quiet.clock cold.answer_valid⟩

/-- The core with other leftovers. -/
def withLeftovers (core : Core) (rest : Leftovers) : Core :=
  { core with datapath := core.datapath.withLeftovers rest }

/-- What reset leaves in a core. -/
def leftovers (core : Core) : Leftovers where
  regfile := core.datapath.regfile
  storeBufferIdx :=
    fun slot => (core.datapath.rob.robQ slot).storeBufferIdx
  marks :=
    fun slot =>
      (core.datapath.mem.storeBuffer.storeBufferQ slot).discarded
  rspPipe := core.datapath.mem.dmemWrapper.rspPipe

variable (first second : Core)

/-- Cores with the same memory differ in nothing but leftovers after reset. -/
theorem reset_withLeftovers
    (sameMemory :
      second.datapath.mem.memory = first.datapath.mem.memory) :
    second.reset = first.reset.withLeftovers second.reset.leftovers := by
  simp only [reset, withLeftovers, Datapath.reset, Datapath.withLeftovers,
    MemStage.reset, MemStage.withLeftovers, sameMemory]
  rfl

/-- The instructions that leave decode take no operand from x31. -/
def LastUnread (core : Core) (horizon : Nat) : Prop :=
  ∀ cycle,
    cycle < horizon →
    (core.run cycle).datapath.readsLast (core.run cycle).answer = false

/-- No index is allocated while an instruction carries it. -/
def NoReuse (core : Core) (horizon : Nat) : Prop :=
  ∀ cycle,
    cycle < horizon →
    (core.run cycle).datapath.reuses (core.run cycle).answer = false

/-- The cores agree in x31. -/
def SameLast : Prop :=
  second.datapath.regfile 31 = first.datapath.regfile 31

/-- The entries of the reorder buffers hold the same store-buffer indices. -/
def SameIdx : Prop :=
  ∀ slot,
    (second.datapath.rob.robQ slot).storeBufferIdx =
      (first.datapath.rob.robQ slot).storeBufferIdx

/-- In this cycle the second core is the first one with other leftovers, which
do no harm. -/
structure Mirrors (cycle : Nat) (rest : Leftovers) : Prop where
  state : second.run cycle = (first.run cycle).withLeftovers rest
  harmless : (first.run cycle).datapath.Harmless rest
  settled : 5 ≤ cycle → (first.run cycle).datapath.mem.Settled rest
  sameLast :
    SameLast first second →
    rest.regfile 31 = (first.run cycle).datapath.regfile 31
  sameIdx :
    SameIdx first second →
    ∀ slot,
      rest.storeBufferIdx slot =
        ((first.run cycle).datapath.rob.robQ slot).storeBufferIdx
  kept :
    first.NoReuse cycle →
    ∃ issued, (second.run cycle).datapath.StoresKept issued

variable {first second} {cycle : Nat} {rest : Leftovers}

/-- They mirror each other after reset. -/
theorem mirrors_reset
    (sameMemory :
      second.datapath.mem.memory = first.datapath.mem.memory) :
    Mirrors first second 0 second.reset.leftovers where
  state := reset_withLeftovers first second sameMemory
  harmless := {
    regfile := fun _ notLast =>
      (second.datapath.regfile.reset_of_ne_last notLast).trans
        (first.datapath.regfile.reset_of_ne_last notLast).symm
    completed := fun _ completed => by cases completed
    undecided := fun _ valid => by cases valid }
  settled := fun late => (Nat.not_succ_le_zero 4 late).elim
  sameLast := fun same => same
  sameIdx := fun same => same
  kept := fun _ => ⟨_, Datapath.storesKept_reset _ fun _ => none⟩

/-- The cache does not notice the leftovers. -/
theorem Mirrors.blind (mirrors : Mirrors first second cycle rest) :
    (first.run cycle).datapath.mem.CacheBlind rest
      (first.run cycle).datapath.exeToMemQ := by
  by_cases late : 5 ≤ cycle
  · exact (mirrors.settled late).cacheBlind
  · have quiet := (first.run_quiet (Nat.le_of_not_le late)).2
    exact quiet.memory.cacheBlind quiet.exeToMemQ_valid rest

/-- A cycle that takes no operand from a leftover x31, and does not mark other
stores, goes on mirroring. -/
theorem Mirrors.clock
    (mirrors : Mirrors first second cycle rest)
    (last : SameLast first second ∨ first.LastUnread (cycle + 1))
    (indices : SameIdx first second ∨ first.NoReuse (cycle + 1)) :
    Mirrors first second (cycle + 1)
      ((first.run cycle).datapath.leftoversD rest
        (first.run cycle).answer) := by
  have blind := mirrors.blind
  have harmless := mirrors.harmless
  have reads :
      rest.regfile 31 = (first.run cycle).datapath.regfile 31 ∨
        (first.run cycle).datapath.readsLast (first.run cycle).answer =
          false :=
    last.imp mirrors.sameLast fun unread =>
      unread cycle (Nat.lt_succ_self cycle)
  have sameAnswer :
      (second.run cycle).answer = (first.run cycle).answer := by
    rw [mirrors.state]
    rfl
  have moved := Datapath.clock_withLeftovers blind harmless reads
  have state :
      second.run (cycle + 1) =
        (first.run (cycle + 1)).withLeftovers
          ((first.run cycle).datapath.leftoversD rest
            (first.run cycle).answer) := by
    simp only [run, mirrors.state]
    simp only [Core.clock, withLeftovers] at moved ⊢
    exact Core.mk.injEq .. ▸ ⟨moved, rfl, rfl⟩
  have keptBefore :
      first.NoReuse (cycle + 1) →
        ∃ issued, (second.run cycle).datapath.StoresKept issued :=
    fun noReuse =>
      mirrors.kept fun earlier before =>
        noReuse earlier (Nat.lt_succ_of_lt before)
  refine ⟨state, ?_, ?_, ?_, ?_, ?_⟩
  · apply Datapath.harmless_clock harmless
    intro slot relevant
    rcases indices with same | noReuse
    · exact Datapath.sameMask_of_sameIdx (mirrors.sameIdx same) slot
    · obtain ⟨_, keptOther⟩ := keptBefore noReuse
      have kept :=
        first.run_storesKept fun earlier before =>
          noReuse earlier (Nat.lt_succ_of_lt before)
      rw [mirrors.state] at keptOther
      exact Datapath.sameMask_of_storesKept blind harmless kept keptOther
        slot relevant
  · intro late
    by_cases lateBefore : 5 ≤ cycle
    · exact MemStage.settled_clock rfl (mirrors.settled lateBefore)
    · obtain rfl : cycle = 4 := by omega
      have quietOther := (second.run_quiet (Nat.le_refl 5)).2.memory
      rw [state] at quietOther
      exact (first.run_quiet (Nat.le_refl 5)).2.memory.settled quietOther
  · intro same
    simp only [run, Core.clock, Datapath.clock, Datapath.leftoversD,
      Regfile.clock, mirrors.sameLast same]
  · intro same
    exact Datapath.sameIdx_clock (mirrors.sameIdx same)
  · intro noReuse
    obtain ⟨issued, keptOther⟩ := keptBefore noReuse
    refine ⟨_, Datapath.storesKept_clock ?_ keptOther⟩
    rw [sameAnswer, mirrors.state]
    exact (Datapath.reuses_withLeftovers blind harmless).trans
      (noReuse cycle (Nat.lt_succ_self cycle))

/-- They mirror each other in every cycle. -/
theorem mirrors_run
    (sameMemory :
      second.datapath.mem.memory = first.datapath.mem.memory)
    (last : SameLast first second ∨ first.LastUnread cycle)
    (indices : SameIdx first second ∨ first.NoReuse cycle) :
    ∃ rest, Mirrors first second cycle rest := by
  induction cycle with
  | zero =>
      exact ⟨_, mirrors_reset sameMemory⟩
  | succ cycle inductionHypothesis =>
      obtain ⟨rest, mirrors⟩ :=
        inductionHypothesis
          (last.imp_right fun unread earlier before =>
            unread earlier (Nat.lt_succ_of_lt before))
          (indices.imp_right fun noReuse earlier before =>
            noReuse earlier (Nat.lt_succ_of_lt before))
      exact ⟨_, mirrors.clock last indices⟩

/-- What the test bench and the simulated memory see of a cycle. -/
structure Outputs where
  commitValid : Bool
  commitPc : Bus32
  commitInstr : Bus32
  commitResult : Bus32
  writeMemCalls : List (Bus32 × Bus32)
  deriving DecidableEq

/-- The outputs of a cycle. -/
def outputs (core : Core) : Outputs where
  commitValid := core.datapath.commit.valid
  commitPc := core.datapath.commit.pc
  commitInstr := core.datapath.commit.instr
  commitResult := core.datapath.commit.result
  writeMemCalls := core.datapath.mem.dmemWrapper.writeMemCalls

/-- Cores that mirror each other have the same outputs. -/
theorem Mirrors.outputs (mirrors : Mirrors first second cycle rest) :
    (second.run cycle).outputs = (first.run cycle).outputs := by
  have sameCommit :
      (second.run cycle).datapath.commit =
        (first.run cycle).datapath.commit := by
    rw [mirrors.state]
    exact Datapath.commit_withLeftovers mirrors.harmless
  have sameRequests :
      (second.run cycle).datapath.mem.dmemWrapper.writeMemCalls =
        (first.run cycle).datapath.mem.dmemWrapper.writeMemCalls := by
    rw [mirrors.state]
    rfl
  simp only [Core.outputs, sameCommit, sameRequests]

/-- The core after some clock edges with `rstn_i` low and then some with
`rstn_i` high. -/
def clocked (powerUp : Core) (low high : Nat) : Core :=
  Core.clock^[high] (Core.reset^[low] powerUp)

/-- A second edge in reset changes nothing. -/
theorem reset_reset (core : Core) : core.reset.reset = core.reset := by
  have sameRegfile :
      core.datapath.regfile.reset.reset = core.datapath.regfile.reset := by
    funext register
    simp only [Regfile.reset]
    split <;> rfl
  simp only [reset, Datapath.reset, sameRegfile]
  rfl

/-- Any number of edges in reset begins the same run. -/
theorem clocked_eq_run
    (powerUp : Core)
    {low : Nat}
    (isReset : 0 < low)
    (high : Nat) :
    powerUp.clocked low high = powerUp.run high := by
  have resets : Core.reset^[low] powerUp = powerUp.reset := by
    induction low, isReset using Nat.le_induction with
    | base =>
        rfl
    | succ low _ inductionHypothesis =>
        rw [Function.iterate_succ_apply', inductionHypothesis, reset_reset]
  rw [clocked, resets, run_eq_iterate]

/--
Reset erases history: two cores with the same memory have the same outputs in
every cycle after reset, if they agree in x31 or nothing takes an operand from
it, and if they agree in the store-buffer indices of the reorder buffer or no
index is allocated while an instruction carries it.
-/
theorem clocked_outputs_eq
    (sameMemory :
      second.datapath.mem.memory = first.datapath.mem.memory)
    {low : Nat}
    (isReset : 0 < low)
    {high : Nat}
    (last : SameLast first second ∨ first.LastUnread high)
    (indices : SameIdx first second ∨ first.NoReuse high) :
    (second.clocked low high).outputs = (first.clocked low high).outputs := by
  rw [clocked_eq_run second isReset, clocked_eq_run first isReset]
  obtain ⟨rest, mirrors⟩ := mirrors_run sameMemory last indices
  exact mirrors.outputs

/-- A store and a load of another line. -/
def storeAndLoad : List Bus32 :=
  [ 0x20602023, -- sw x6, 512(x0)
    0x24002283 ] -- lw x5, 576(x0)

/-- The core with every leftover replaced. -/
def littered (core : Core) : Core :=
  core.withLeftovers {
    regfile := fun _ => 7
    storeBufferIdx := fun _ => 3
    marks := fun _ => true
    rspPipe := fun _ => { valid := true, addr := 4, dataLine := fun _ => 7 } }

/-- A core that powers up littered runs the store and the load alike. -/
theorem clocked_outputs_eq_storeAndLoad :
    ((withProgram storeAndLoad).littered.clocked 2 40).outputs =
      ((withProgram storeAndLoad).clocked 2 40).outputs := by
  have passed :
      Strict.always Core.clock
        (fun core =>
          !core.datapath.readsLast core.answer &&
            !core.datapath.reuses core.answer) 40
        (withProgram storeAndLoad).reset = true := by
    decide +kernel
  have unread : (withProgram storeAndLoad).LastUnread 40 := by
    intro cycle before
    have check := check_run passed before.le
    rw [Bool.and_eq_true, Bool.not_eq_true'] at check
    exact check.1
  have noReuse : (withProgram storeAndLoad).NoReuse 40 := by
    intro cycle before
    have check := check_run passed before.le
    rw [Bool.and_eq_true, Bool.not_eq_true', Bool.not_eq_true'] at check
    exact check.2
  have sameMemory :
      (withProgram storeAndLoad).littered.datapath.mem.memory =
        (withProgram storeAndLoad).datapath.mem.memory :=
    rfl
  exact
    clocked_outputs_eq sameMemory (by decide) (.inr unread) (.inr noReuse)

/-- The core with another value in x31. -/
def withLast (core : Core) (value : Bus32) : Core :=
  { core with
    datapath := {
      core.datapath with
      regfile := Function.update core.datapath.regfile 31 value } }

/-- One instruction that reads x31. -/
def readLast : List Bus32 :=
  [ 0x000f80b3 ] -- add x1, x31, x0

/-- It commits what x31 held before the reset. -/
theorem readLast_remembers :
    ((withProgram readLast).withLast 1).datapath.mem.memory =
        (withProgram readLast).datapath.mem.memory ∧
      (((withProgram readLast).withLast 1).clocked 1 16).outputs ≠
        ((withProgram readLast).clocked 1 16).outputs := by
  have first :
      Strict.observe Core.clock (fun core => core.outputs.commitResult) 16
        (withProgram readLast).reset = 0 := by
    decide +kernel
  have second :
      Strict.observe Core.clock (fun core => core.outputs.commitResult) 16
        ((withProgram readLast).withLast 1).reset = 1 := by
    decide +kernel
  rw [← observe_run (withProgram readLast)] at first
  rw [← observe_run ((withProgram readLast).withLast 1)] at second
  refine ⟨rfl, ?_⟩
  rw [clocked_eq_run _ Nat.one_pos, clocked_eq_run _ Nat.one_pos]
  intro same
  rw [same, first] at second
  cases second

/-- The core with one store-buffer index in all entries of the reorder
buffer. -/
def withIdx (core : Core) (idx : StoreBufferIdx) : Core :=
  { core with
    datapath := {
      core.datapath with
      rob := core.datapath.rob.withIdx fun _ => idx } }

/--
The second jump squashes a store whose index is allocated again before the
store reaches the store buffer, where it stays without an owner.  The third
jump squashes a store that has not been written back.  The store at its target
waits behind the one without an owner.
-/
def ownerlessStore : List Bus32 :=
  [ 0x0100006f ] ++ -- jal x0, 16
    List.replicate 16 0x00000013 ++ -- addi x0, x0, 0
    [ 0x0180006f, -- jal x0, 24
      0x020002b3, -- mul x5, x0, x0
      0x20002283, -- lw x5, 512(x0)
      0x20002223 ] ++ -- sw x0, 516(x0)
    List.replicate 13 0x00000013 ++ -- addi x0, x0, 0
    [ 0x0100006f, -- jal x0, 16
      0x00000013, -- addi x0, x0, 0
      0x00000013, -- addi x0, x0, 0
      0x2a002e23, -- sw x0, 700(x0)
      0x20002423 ] -- sw x0, 520(x0)

/-- With index zero the squashed store names the store without an owner, and
the store at the target is written. -/
private theorem ownerlessStore_discarded :
    Strict.observe Core.clock
      (fun core => core.outputs.writeMemCalls.isEmpty) 98
      ((withProgram ownerlessStore).withIdx 0).reset = false := by
  decide +kernel

/-- With index one it does not. -/
private theorem ownerlessStore_blocks :
    Strict.observe Core.clock
      (fun core => core.outputs.writeMemCalls.isEmpty) 98
      ((withProgram ownerlessStore).withIdx 1).reset = true := by
  decide +kernel

/-- Whether the store at the target is written depends on the indices before
the reset. -/
theorem ownerlessStore_remembers :
    (((withProgram ownerlessStore).withIdx 1).clocked 1 98).outputs ≠
      (((withProgram ownerlessStore).withIdx 0).clocked 1 98).outputs := by
  have first := ownerlessStore_discarded
  have second := ownerlessStore_blocks
  rw [← observe_run ((withProgram ownerlessStore).withIdx 0)] at first
  rw [← observe_run ((withProgram ownerlessStore).withIdx 1)] at second
  rw [clocked_eq_run _ Nat.one_pos, clocked_eq_run _ Nat.one_pos]
  intro same
  rw [same, first] at second
  cases second

end Core

end Tartaruga
