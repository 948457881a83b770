import Tartaruga.PipelinedMemory
import Mathlib.Data.Fin.Basic

namespace Tartaruga

/-!
# A miss of the data cache

The data cache with the memory behind it.  If nothing else is under way when a
request misses, and the request is held, the line of the memory is installed
under the request after twelve cycles.
-/

/-- The data cache, the wrapper and the memory. -/
structure DcacheSystem where
  dcache : Dcache
  dmemWrapper : DmemWrapper
  memory : Memory

namespace DcacheSystem

/-- The request that the cache presents to the memory. -/
def memRequest
    (system : DcacheSystem)
    (request : DcacheRequest) :
    MemRequest :=
  system.dcache.memReq request system.dmemWrapper.reqReady

/-- The cache answers the request in this cycle. -/
def ready (system : DcacheSystem) (request : DcacheRequest) : Bool :=
  system.dcache.ready request system.dmemWrapper.response

/-- One clock edge under the request of the cycle. -/
def clock (system : DcacheSystem) (request : DcacheRequest) : DcacheSystem where
  dcache := system.dcache.clock request system.dmemWrapper.response
  dmemWrapper :=
    system.dmemWrapper.clock (system.memRequest request) system.memory
  memory := system.dmemWrapper.memoryD system.memory

/-- The request misses in this cycle. -/
def misses (system : DcacheSystem) (request : DcacheRequest) : Bool :=
  system.dcache.state == .idle && request.valid &&
    !system.dcache.hit request

/-- After this cycle both pipes are empty, unless a request enters. -/
def drained (system : DcacheSystem) : Bool :=
  (List.finRange 5).all
      (fun stage => !(system.dmemWrapper.reqPipe stage).valid) &&
    (List.finRange 4).all
      (fun stage => !(system.dmemWrapper.rspPipe stage.castSucc).valid)

/-- The line of an address has been on its way for some cycles, alone. -/
structure Fetching
    (system : DcacheSystem)
    (age : Nat)
    (addr : Bus32) :
    Prop where
  state :
    system.dcache.state = if age = 11 then .loadLine else .miss
  requested :
    ∀ stage : Fin 5,
      (system.dmemWrapper.reqPipe stage).valid =
        decide (stage.val + 1 = age)
  request :
    ∀ stage : Fin 5,
      stage.val + 1 = age →
      (system.dmemWrapper.reqPipe stage).we = false ∧
        (system.dmemWrapper.reqPipe stage).addr = Dcache.lineAligned addr
  answered :
    ∀ stage : Fin 5,
      (system.dmemWrapper.rspPipe stage).valid =
        decide (stage.val + 6 = age)
  loaded :
    ∀ stage : Fin 5,
      stage.val + 6 ≤ age →
      (system.dmemWrapper.rspPipe stage).dataLine =
        Line.read system.memory (Dcache.lineAligned addr)

section Miss

variable {system : DcacheSystem} {request : DcacheRequest} {age : Nat}
  {addr : Bus32}

/-- The response pipe and the request pipe move on. -/
theorem pipes_succ (stage : Fin 4) :
    (system.clock request).dmemWrapper.reqPipe stage.succ =
        system.dmemWrapper.reqPipe stage.castSucc ∧
      (system.clock request).dmemWrapper.rspPipe stage.succ =
        system.dmemWrapper.rspPipe stage.castSucc :=
  ⟨DmemWrapper.reqPipe_succ _ _ _ stage, DmemWrapper.rspPipe_succ _ _ _ stage⟩

/-- A request that misses while the pipes drain is fetched. -/
theorem fetching_of_misses
    (misses : system.misses request = true)
    (drained : system.drained = true) :
    (system.clock request).Fetching 0 request.addr := by
  simp only [DcacheSystem.misses, Bool.and_eq_true, beq_iff_eq,
    Bool.not_eq_true'] at misses
  obtain ⟨⟨idle, valid⟩, noHit⟩ := misses
  simp only [DcacheSystem.drained, Bool.and_eq_true, List.all_eq_true,
    List.mem_finRange, true_implies, Bool.not_eq_true'] at drained
  constructor
  · change system.dcache.nextState request _ = _
    simp [Dcache.nextState, idle, valid, noHit]
  · intro stage
    cases stage using Fin.cases with
    | zero =>
        change (system.memRequest request).valid = _
        simp [memRequest, Dcache.memReq, idle, noHit]
    | succ stage =>
        rw [(pipes_succ stage).1, drained.1]
        simp
  · intro stage absurd
    cases absurd
  · intro stage
    cases stage using Fin.cases with
    | zero =>
        have unserved : system.dmemWrapper.served.valid = false :=
          drained.1 4
        change (system.dmemWrapper.rspPipeLoad system.memory).valid = _
        rw [DmemWrapper.rspPipeLoad_valid, unserved]
        rfl
    | succ stage =>
        rw [(pipes_succ stage).2, drained.2]
        simp
  · intro stage absurd
    cases absurd

variable (fetching : system.Fetching age addr)
include fetching

/-- The memory is not written meanwhile. -/
theorem Fetching.memory_clock :
    (system.clock request).memory = system.memory := by
  have notWritten :
      (system.dmemWrapper.served.valid && system.dmemWrapper.served.we) =
        false := by
    by_cases served : 4 + 1 = age
    · have isRead : system.dmemWrapper.served.we = false :=
        (fetching.request 4 served).1
      rw [isRead, Bool.and_false]
    · have unserved : system.dmemWrapper.served.valid = false :=
        (fetching.requested 4).trans (decide_eq_false served)
      rw [unserved, Bool.false_and]
  change system.dmemWrapper.memoryD system.memory = system.memory
  simp only [DmemWrapper.memoryD, notWritten, Bool.false_eq_true, if_false]

/-- The memory is asked once. -/
theorem Fetching.memRequest_valid (early : age ≤ 11) :
    (system.memRequest request).valid = decide (age = 0) := by
  by_cases first : age = 0
  · have ready : system.dmemWrapper.reqReady = true := by
      simp [DmemWrapper.reqReady, fetching.requested, fetching.answered,
        first]
    have state := fetching.state
    simp [first] at state
    simp [memRequest, Dcache.memReq, state, ready, first]
  · by_cases last : age = 11
    · have state := fetching.state
      simp [last] at state
      simp [memRequest, Dcache.memReq, state, last]
    · have busy : system.dmemWrapper.reqReady = false := by
        rw [← Bool.not_eq_true]
        intro ready
        simp only [DmemWrapper.reqReady, Bool.and_eq_true,
          List.all_eq_true, List.mem_finRange, true_implies,
          Bool.not_eq_true', fetching.requested, fetching.answered,
          decide_eq_false_iff_not] at ready
        by_cases inRequests : age ≤ 5
        · exact ready.1 ⟨age - 1, by omega⟩ (by simp only; omega)
        · exact ready.2 ⟨age - 6, by omega⟩ (by simp only; omega)
      have state := fetching.state
      simp [last] at state
      simp [memRequest, Dcache.memReq, state, busy, first]

/-- It is asked for the line of the request that is held. -/
theorem Fetching.memRequest_read
    (first : age = 0)
    (held : Dcache.lineAligned request.addr = Dcache.lineAligned addr) :
    (system.memRequest request).we = false ∧
      (system.memRequest request).addr = Dcache.lineAligned addr := by
  have ready : system.dmemWrapper.reqReady = true := by
    simp [DmemWrapper.reqReady, fetching.requested, fetching.answered, first]
  have state := fetching.state
  simp [first] at state
  simp [memRequest, Dcache.memReq, state, ready, held]

/-- From its seventh cycle on the pipe brings the line back as it is. -/
theorem Fetching.loaded_clock
    {stage : Fin 5}
    (reached : stage.val + 6 ≤ age + 1) :
    ((system.clock request).dmemWrapper.rspPipe stage).dataLine =
      Line.read system.memory (Dcache.lineAligned addr) := by
  have servedValid :
      system.dmemWrapper.served.valid = decide (4 + 1 = age) :=
    fetching.requested 4
  cases stage using Fin.cases with
  | zero =>
      change (system.dmemWrapper.rspPipeLoad system.memory).dataLine = _
      change 0 + 6 ≤ age + 1 at reached
      rw [DmemWrapper.rspPipeLoad_dataLine]
      by_cases served : 4 + 1 = age
      · obtain ⟨isRead, isLine⟩ := fetching.request 4 served
        rw [if_pos ⟨servedValid.trans (decide_eq_true served), isRead⟩]
        exact congrArg (Line.read system.memory) isLine
      · have unserved : ¬ system.dmemWrapper.served.valid = true := by
          rw [servedValid, decide_eq_true_eq]
          exact served
        rw [if_neg fun reads => unserved reads.1]
        exact fetching.loaded 0 (by omega)
  | succ stage =>
      rw [(pipes_succ stage).2]
      exact fetching.loaded stage.castSucc (by
        change stage.val + 1 + 6 ≤ age + 1 at reached
        change stage.val + 6 ≤ age
        omega)

/-- The line of a held request moves on. -/
theorem Fetching.clock
    (early : age ≤ 10)
    (held : Dcache.lineAligned request.addr = Dcache.lineAligned addr) :
    (system.clock request).Fetching (age + 1) addr := by
  have response :
      system.dmemWrapper.response.valid = decide (4 + 6 = age) :=
    fetching.answered 4
  have notLast : age ≠ 11 := by omega
  have state := fetching.state
  rw [if_neg notLast] at state
  have servedValid :
      system.dmemWrapper.served.valid = decide (4 + 1 = age) :=
    fetching.requested 4
  constructor
  · change system.dcache.nextState request _ = _
    simp only [Dcache.nextState, state, response, decide_eq_true_eq]
    split
    · rename_i last
      rw [if_pos (by omega)]
    · rename_i before
      rw [if_neg (by omega)]
  · intro stage
    cases stage using Fin.cases with
    | zero =>
        change (system.memRequest request).valid = _
        rw [fetching.memRequest_valid (Nat.le_succ_of_le early),
          decide_eq_decide]
        change age = 0 ↔ 0 + 1 = age + 1
        omega
    | succ stage =>
        rw [(pipes_succ stage).1, fetching.requested, decide_eq_decide]
        change stage.val + 1 = age ↔ stage.val + 1 + 1 = age + 1
        omega
  · intro stage reached
    cases stage using Fin.cases with
    | zero =>
        exact fetching.memRequest_read (Nat.succ_inj.mp reached).symm held
    | succ stage =>
        rw [(pipes_succ stage).1]
        exact fetching.request stage.castSucc (Nat.succ_inj.mp reached)
  · intro stage
    cases stage using Fin.cases with
    | zero =>
        change (system.dmemWrapper.rspPipeLoad system.memory).valid = _
        rw [DmemWrapper.rspPipeLoad_valid, servedValid, decide_eq_decide]
        change 4 + 1 = age ↔ 0 + 6 = age + 1
        omega
    | succ stage =>
        rw [(pipes_succ stage).2, fetching.answered, decide_eq_decide]
        change stage.val + 6 = age ↔ stage.val + 1 + 6 = age + 1
        omega
  · intro stage reached
    rw [fetching.memory_clock]
    exact fetching.loaded_clock reached

omit fetching in
/-- In the last cycle of its miss the line is installed under the request. -/
theorem Fetching.lineD
    (fetching : system.Fetching 11 request.addr) :
    system.dcache.lineD request system.dmemWrapper.response =
      { valid := true
        tag := Dcache.tagIn request.addr
        data :=
          Line.read system.memory (Dcache.lineAligned request.addr) } := by
  have state := fetching.state
  rw [if_pos rfl] at state
  simp only [Dcache.lineD, state, ← fetching.loaded 4 (by decide)]
  rfl

end Miss

end DcacheSystem

end Tartaruga
