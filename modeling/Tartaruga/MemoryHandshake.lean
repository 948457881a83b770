import Tartaruga.DataCacheFlat

namespace Tartaruga

/-!
# The handshake between the data cache and the memory

A miss asks the memory once, and waits for the answer to its own request.  A
store that hits asks in every cycle in which it waits, whether the memory is
ready or not.
-/

namespace DcacheSystem

/-- The requests and responses on their way. -/
def outstanding (system : DcacheSystem) : Nat :=
  ((List.finRange 5).filter fun stage =>
      (system.dmemWrapper.reqPipe stage).valid).length +
    ((List.finRange 5).filter fun stage =>
      (system.dmemWrapper.rspPipe stage).valid).length

/-- Nothing is on its way. -/
structure Clear (system : DcacheSystem) : Prop where
  requests : ∀ stage, (system.dmemWrapper.reqPipe stage).valid = false
  responses : ∀ stage, (system.dmemWrapper.rspPipe stage).valid = false

/-- A store hits in this cycle. -/
def writeHits (system : DcacheSystem) (request : DcacheRequest) : Bool :=
  system.dcache.state == .idle && request.valid && request.we &&
    system.dcache.hit request

section Run

variable (initial : DcacheSystem) (requests : Nat → DcacheRequest)

/-- The request presented to the memory in a cycle. -/
def memRequestAt (cycle : Nat) : MemRequest :=
  (initial.run requests cycle).memRequest (requests cycle)

/--
Between two cycles the memory is asked once for a read, or once for a write, of
the line of an address, and the answer to this request comes in the last of
them: the memory answers after ten cycles.
-/
structure AskedOnce
    (first last : Nat)
    (we : Bool)
    (addr : Bus32) :
    Prop where
  asked :
    ∃ asked, first ≤ asked ∧ asked + 10 = last ∧
      (initial.memRequestAt requests asked).addr =
        Dcache.lineAligned addr ∧
      ∀ cycle, first ≤ cycle → cycle ≤ last →
        ((initial.memRequestAt requests cycle).valid = true ∧
            (initial.memRequestAt requests cycle).we = we ↔
          cycle = asked)
  answered :
    (initial.run requests last).dmemWrapper.response.valid = true ∧
      (initial.run requests last).dmemWrapper.response.addr =
        Dcache.lineAligned addr

/-- The request of a cycle is waiting from another cycle on. -/
def WaitsFrom (first last : Nat) : Prop :=
  first ≤ last ∧
    (∀ cycle, first ≤ cycle → cycle < last →
      (requests cycle).valid = true ∧
        (initial.run requests cycle).ready (requests cycle) = false) ∧
    (first = 0 ∨
      (requests (first - 1)).valid = false ∨
      (initial.run requests (first - 1)).ready (requests (first - 1)) =
        true)

/-- The cache kept the handshake in the first cycles. -/
structure KeepsHandshake (cycles : Nat) : Prop where
  onlyWhenReady :
    ∀ cycle, cycle < cycles →
      (initial.memRequestAt requests cycle).valid = true →
        (initial.run requests cycle).dmemWrapper.reqReady = true
  oneOutstanding :
    ∀ cycle, cycle < cycles → (initial.run requests cycle).outstanding ≤ 1
  missReads :
    ∀ cycle, cycle < cycles →
      (initial.run requests cycle).dcache.state = .miss →
      (initial.run requests cycle).dmemWrapper.response.valid = true →
        ∃ start, start < cycle ∧
          (initial.run requests start).misses (requests start) = true ∧
          (∀ later, start < later → later ≤ cycle →
            (initial.run requests later).dcache.state = .miss) ∧
          initial.AskedOnce requests start cycle false
            (requests cycle).addr
  storeWrites :
    ∀ cycle, cycle < cycles →
      initial.acknowledges requests cycle = true →
      (requests cycle).we = true →
        ∃ start, initial.WaitsFrom requests start cycle ∧
          initial.AskedOnce requests start cycle true (requests cycle).addr

/-- No store hits in the first cycles, the last one aside. -/
def NoWriteHit (cycles : Nat) : Prop :=
  ∀ cycle, cycle + 1 < cycles →
    (initial.run requests cycle).writeHits (requests cycle) = false

/-- The cache is idle and nothing is on its way, or a miss has been under way
for some cycles that found it so. -/
def Settled (cycle : Nat) : Prop :=
  (initial.run requests cycle).dcache.state = .idle ∧
      (initial.run requests cycle).Clear ∨
    ∃ start age,
      start + 1 + age = cycle ∧ age ≤ 11 ∧
        (initial.run requests start).misses (requests start) = true ∧
        (initial.run requests start).Clear

end Run

section Step

variable {system : DcacheSystem} {request : DcacheRequest} {age : Nat}
  {addr : Bus32}

/-- With nothing on its way the memory is ready. -/
theorem Clear.reqReady (clear : system.Clear) :
    system.dmemWrapper.reqReady = true := by
  simp [DmemWrapper.reqReady, clear.requests, clear.responses]

/-- With nothing on its way the pipes are drained. -/
theorem Clear.drained (clear : system.Clear) : system.drained = true := by
  simp [DcacheSystem.drained, clear.requests, clear.responses]

/-- Nothing on its way counts for nothing. -/
theorem Clear.outstanding (clear : system.Clear) :
    system.outstanding = 0 := by
  simp [DcacheSystem.outstanding, clear.requests, clear.responses]

/-- A cycle that asks for nothing leaves nothing on its way. -/
theorem clear_clock
    (noRequest : (system.memRequest request).valid = false)
    (requests : ∀ stage, (system.dmemWrapper.reqPipe stage).valid = false)
    (responses :
      ∀ stage : Fin 4,
        (system.dmemWrapper.rspPipe stage.castSucc).valid = false) :
    (system.clock request).Clear := by
  constructor
  · intro stage
    cases stage using Fin.cases with
    | zero => exact noRequest
    | succ stage =>
        rw [(pipes_succ stage).1]
        exact requests stage.castSucc
  · intro stage
    cases stage using Fin.cases with
    | zero =>
        have unserved : system.dmemWrapper.served.valid = false :=
          requests 4
        change (system.dmemWrapper.rspPipeLoad system.memory).valid = _
        rw [DmemWrapper.rspPipeLoad_valid, unserved]
    | succ stage =>
        rw [(pipes_succ stage).2]
        exact responses stage

/-- A line under way is one request or one response. -/
theorem Fetching.outstanding
    (fetching : system.Fetching age addr)
    (bound : age ≤ 11) :
    system.outstanding ≤ 1 := by
  have counted :
      ∀ age : Fin 12,
        ((List.finRange 5).filter fun stage =>
            decide (stage.val + 1 = age.val)).length +
          ((List.finRange 5).filter fun stage =>
            decide (stage.val + 6 = age.val)).length ≤ 1 := by
    decide
  simp only [DcacheSystem.outstanding, fetching.requested,
    fetching.answered]
  exact counted ⟨age, Nat.lt_succ_of_le bound⟩

/-- The line is asked for when the memory is ready. -/
theorem Fetching.reqReady (fetching : system.Fetching 0 addr) :
    system.dmemWrapper.reqReady = true := by
  simp [DmemWrapper.reqReady, fetching.requested, fetching.answered]

/-- After the last cycle of a miss nothing is on its way. -/
theorem Fetching.clear_clock (fetching : system.Fetching 11 addr) :
    (system.clock request).dcache.state = .idle ∧
      (system.clock request).Clear := by
  have state := fetching.state
  rw [if_pos rfl] at state
  constructor
  · change system.dcache.nextState request _ = _
    simp only [Dcache.nextState, state]
  · apply DcacheSystem.clear_clock
    · rw [fetching.memRequest_valid (Nat.le_refl _)]
      rfl
    · intro stage
      rw [fetching.requested]
      exact decide_eq_false (by omega)
    · intro stage
      rw [fetching.answered]
      exact decide_eq_false (by change stage.val + 6 ≠ 11; omega)

/-- An idle cycle without a miss and without a store that hits asks for
nothing. -/
theorem Clear.clock
    (clear : system.Clear)
    (idle : system.dcache.state = .idle)
    (noMiss : system.misses request = false)
    (noWrite : system.writeHits request = false) :
    (system.clock request).dcache.state = .idle ∧
      (system.clock request).Clear := by
  simp only [misses, idle, beq_self_eq_true, Bool.true_and] at noMiss
  simp only [writeHits, idle, beq_self_eq_true, Bool.true_and] at noWrite
  constructor
  · change system.dcache.nextState request _ = _
    simp only [Dcache.nextState, idle, noMiss, Bool.false_eq_true,
      ↓reduceIte]
  · refine DcacheSystem.clear_clock ?_ clear.requests
      fun stage => clear.responses _
    have notPresented :
        (request.valid && system.dcache.hit request && request.we) =
          false := by
      rw [Bool.and_right_comm]
      exact noWrite
    simp only [memRequest, Dcache.memReq, idle, notPresented,
      Bool.false_eq_true, ↓reduceIte]

end Step

section Miss

variable {initial : DcacheSystem} {requests : Nat → DcacheRequest}

/-- A miss that finds nothing on its way is fetched, and its request is held
meanwhile. -/
theorem fetching_after_miss
    (held : initial.Held requests)
    {start : Nat}
    (misses :
      (initial.run requests start).misses (requests start) = true)
    (clear : (initial.run requests start).Clear)
    {age : Nat}
    (bound : age ≤ 11) :
    (initial.run requests (start + 1 + age)).Fetching age
        (requests start).addr ∧
      requests (start + 1 + age) = requests start := by
  have shape := misses
  simp only [DcacheSystem.misses, Bool.and_eq_true, beq_iff_eq,
    Bool.not_eq_true'] at shape
  obtain ⟨⟨idle, asks⟩, noHit⟩ := shape
  induction age with
  | zero =>
      have notReady :
          (initial.run requests start).ready (requests start) = false := by
        simp [ready, Dcache.ready, asks, noHit]
      exact ⟨fetching_of_misses misses clear.drained,
        held start asks notReady⟩
  | succ age inductionHypothesis =>
      obtain ⟨fetching, same⟩ :=
        inductionHypothesis (Nat.le_of_succ_le bound)
      have notIdle :
          ((initial.run requests (start + 1 + age)).dcache.state ==
            .idle) = false := by
        rw [fetching.state]
        split <;> rfl
      have notReady :
          (initial.run requests (start + 1 + age)).ready
              (requests (start + 1 + age)) = false := by
        rw [ready, Dcache.ready, notIdle, Bool.false_and]
      have stillAsks : (requests (start + 1 + age)).valid = true := by
        rw [same]
        exact asks
      have sameLine :
          Dcache.lineAligned (requests (start + 1 + age)).addr =
            Dcache.lineAligned (requests start).addr := by
        rw [same]
      exact
        ⟨fetching.clock (Nat.le_of_succ_le_succ bound) sameLine,
          (held _ stillAsks notReady).trans same⟩

/-- Every cycle is settled as long as no store has hit. -/
theorem run_settled
    (fresh : initial.Fresh)
    (held : initial.Held requests)
    {cycle : Nat}
    (noWrite :
      ∀ earlier, earlier < cycle →
        (initial.run requests earlier).writeHits (requests earlier) =
          false) :
    initial.Settled requests cycle := by
  induction cycle with
  | zero => exact .inl ⟨fresh.state, fresh.requests, fresh.responses⟩
  | succ cycle inductionHypothesis =>
      have settled :=
        inductionHypothesis fun earlier before =>
          noWrite earlier (Nat.lt_succ_of_lt before)
      rcases settled with
        ⟨idle, clear⟩ | ⟨start, age, rfl, bound, misses, clear⟩
      · cases misses :
            (initial.run requests cycle).misses (requests cycle) with
        | true =>
            exact .inr ⟨cycle, 0, rfl, Nat.zero_le _, misses, clear⟩
        | false =>
            exact .inl (clear.clock idle misses
              (noWrite cycle (Nat.lt_succ_self cycle)))
      · rcases Nat.lt_or_eq_of_le bound with early | last
        · exact .inr ⟨start, age + 1, rfl, early, misses, clear⟩
        · subst last
          have fetching := (fetching_after_miss held misses clear bound).1
          exact .inl fetching.clear_clock

variable (initial requests) in
/-- The memory answers what it was asked ten cycles before. -/
theorem run_response_of_request (cycle : Nat) :
    (initial.run requests (cycle + 10)).dmemWrapper.response.valid =
        (initial.memRequestAt requests cycle).valid ∧
      ((initial.memRequestAt requests cycle).valid = true →
        (initial.run requests (cycle + 10)).dmemWrapper.response.addr =
          (initial.memRequestAt requests cycle).addr) := by
  have served :
      (initial.run requests (cycle + 5)).dmemWrapper.served =
        initial.memRequestAt requests cycle := by
    apply Clocked.shiftRegister_input
      (fun cycle => (initial.run requests cycle).dmemWrapper.reqPipe)
      (initial.memRequestAt requests)
    · intro cycle
      rfl
    · intro cycle stage
      exact DmemWrapper.reqPipe_succ _ _ _ stage
  have response :
      (initial.run requests (cycle + 5 + 5)).dmemWrapper.response =
        (initial.run requests (cycle + 5)).dmemWrapper.rspPipeLoad
          (initial.run requests (cycle + 5)).memory := by
    apply Clocked.shiftRegister_input
      (fun cycle => (initial.run requests cycle).dmemWrapper.rspPipe)
      fun cycle =>
        (initial.run requests cycle).dmemWrapper.rspPipeLoad
          (initial.run requests cycle).memory
    · intro cycle
      rfl
    · intro cycle stage
      exact DmemWrapper.rspPipe_succ _ _ _ stage
  rw [show cycle + 10 = cycle + 5 + 5 from rfl, response,
    DmemWrapper.rspPipeLoad, served]
  cases asked : (initial.memRequestAt requests cycle).valid with
  | true => exact ⟨rfl, fun _ => rfl⟩
  | false => exact ⟨rfl, fun asks => absurd asks Bool.false_ne_true⟩

/-- Along a miss the memory is asked in its second cycle only. -/
theorem memRequestAt_of_miss
    (held : initial.Held requests)
    {start cycle : Nat}
    (misses :
      (initial.run requests start).misses (requests start) = true)
    (clear : (initial.run requests start).Clear)
    (from_start : start ≤ cycle)
    (until_end : cycle ≤ start + 12) :
    (initial.memRequestAt requests cycle).valid = true ↔
      cycle = start + 1 := by
  rcases Nat.eq_or_lt_of_le from_start with rfl | later
  · have shape := misses
    simp only [DcacheSystem.misses, Bool.and_eq_true, beq_iff_eq,
      Bool.not_eq_true'] at shape
    have noRequest :
        (initial.memRequestAt requests start).valid = false := by
      simp [memRequestAt, memRequest, Dcache.memReq, shape.1.1, shape.2]
    rw [noRequest]
    exact ⟨fun asks => absurd asks Bool.false_ne_true,
      fun impossible => absurd impossible (by omega)⟩
  · obtain ⟨age, rfl⟩ := Nat.exists_eq_add_of_le later
    have bound : age ≤ 11 := by omega
    obtain ⟨fetching, _⟩ := fetching_after_miss held misses clear bound
    have asks :
        (initial.memRequestAt requests (start + 1 + age)).valid =
          decide (age = 0) :=
      fetching.memRequest_valid bound
    rw [show start.succ + age = start + 1 + age from rfl, asks,
      decide_eq_true_eq]
    omega

/-- A miss asks the memory once, and ends with the answer. -/
theorem askedOnce_of_miss
    (held : initial.Held requests)
    {start : Nat}
    (misses :
      (initial.run requests start).misses (requests start) = true)
    (clear : (initial.run requests start).Clear) :
    initial.AskedOnce requests start (start + 11) false
      (requests start).addr := by
  obtain ⟨fetching, same⟩ :=
    fetching_after_miss held misses clear (Nat.zero_le 11)
  have asked := memRequestAt_of_miss held misses clear (Nat.le_succ start)
    (by omega)
  have isRead :
      (initial.memRequestAt requests (start + 1)).we = false ∧
        (initial.memRequestAt requests (start + 1)).addr =
          Dcache.lineAligned (requests start).addr :=
    fetching.memRequest_read rfl (by rw [same])
  obtain ⟨answered, sameAddr⟩ :=
    run_response_of_request initial requests (start + 1)
  refine ⟨⟨start + 1, Nat.le_succ start, rfl, isRead.2, ?_⟩, ?_, ?_⟩
  · intro cycle from_start until_end
    rw [memRequestAt_of_miss held misses clear from_start
      (Nat.le_succ_of_le until_end)]
    constructor
    · intro asks
      exact asks.1
    · intro isSecond
      subst isSecond
      exact ⟨rfl, isRead.1⟩
  · exact answered.trans (asked.mpr rfl)
  · exact (sameAddr (asked.mpr rfl)).trans isRead.2

/-- In a settled cycle the memory is asked only when it is ready, and at most
one request is on its way. -/
theorem Settled.ready
    (held : initial.Held requests)
    {cycle : Nat}
    (settled : initial.Settled requests cycle) :
    ((initial.memRequestAt requests cycle).valid = true →
        (initial.run requests cycle).dmemWrapper.reqReady = true) ∧
      (initial.run requests cycle).outstanding ≤ 1 := by
  rcases settled with
    ⟨_, clear⟩ | ⟨start, age, rfl, bound, misses, clear⟩
  · exact ⟨fun _ => clear.reqReady, clear.outstanding.trans_le zero_le_one⟩
  · obtain ⟨fetching, _⟩ := fetching_after_miss held misses clear bound
    refine ⟨fun asks => ?_, fetching.outstanding bound⟩
    have second := (memRequestAt_of_miss held misses clear (by omega)
      (by omega)).mp asks
    obtain rfl : age = 0 := by omega
    exact fetching.reqReady

/-- In a settled cycle a response ends the miss that asked for it. -/
theorem Settled.missRead
    (held : initial.Held requests)
    {cycle : Nat}
    (settled : initial.Settled requests cycle)
    (waits : (initial.run requests cycle).dcache.state = .miss)
    (answered :
      (initial.run requests cycle).dmemWrapper.response.valid = true) :
    ∃ start, start < cycle ∧
      (initial.run requests start).misses (requests start) = true ∧
      (∀ later, start < later → later ≤ cycle →
        (initial.run requests later).dcache.state = .miss) ∧
      initial.AskedOnce requests start cycle false
        (requests cycle).addr := by
  rcases settled with
    ⟨idle, _⟩ | ⟨start, age, rfl, bound, misses, clear⟩
  · rw [idle] at waits
    cases waits
  · obtain ⟨fetching, same⟩ := fetching_after_miss held misses clear bound
    have last : decide (4 + 6 = age) = true :=
      (fetching.answered 4).symm.trans answered
    obtain rfl : age = 10 := (decide_eq_true_eq.mp last).symm
    refine ⟨start, by omega, misses, ?_, ?_⟩
    · intro later after until_end
      obtain ⟨older, rfl⟩ := Nat.exists_eq_add_of_le after
      have early : older ≠ 11 := by omega
      have state :=
        (fetching_after_miss held misses clear
          (show older ≤ 11 by omega)).1.state
      rw [if_neg early] at state
      exact state
    · rw [same]
      exact askedOnce_of_miss held misses clear

/-- In a settled cycle no store is acknowledged. -/
theorem Settled.no_store
    (held : initial.Held requests)
    {cycle : Nat}
    (settled : initial.Settled requests cycle)
    (isStore : (requests cycle).we = true) :
    initial.acknowledges requests cycle = false := by
  rw [acknowledges, Bool.and_eq_false_imp]
  intro asks
  rcases settled with
    ⟨_, clear⟩ | ⟨start, age, rfl, bound, misses, clear⟩
  · have noResponse :
        (initial.run requests cycle).dmemWrapper.response.valid = false :=
      clear.responses 4
    simp [DcacheSystem.ready, Dcache.ready, asks, isStore, noResponse]
  · have state := (fetching_after_miss held misses clear bound).1.state
    have notIdle :
        ((initial.run requests (start + 1 + age)).dcache.state ==
          .idle) = false := by
      rw [state]
      split <;> rfl
    rw [DcacheSystem.ready, Dcache.ready, notIdle, Bool.false_and]

/-- A store that hits while nothing is on its way asks again in the next
cycle, although the memory is not ready any more. -/
theorem asks_again
    (held : initial.Held requests)
    {cycle : Nat}
    (clear : (initial.run requests cycle).Clear)
    (writeHits :
      (initial.run requests cycle).writeHits (requests cycle) = true) :
    (initial.memRequestAt requests (cycle + 1)).valid = true ∧
      (initial.run requests (cycle + 1)).dmemWrapper.reqReady = false := by
  simp only [DcacheSystem.writeHits, Bool.and_eq_true, beq_iff_eq]
    at writeHits
  obtain ⟨⟨⟨idle, asks⟩, isStore⟩, hits⟩ := writeHits
  have noResponse :
      (initial.run requests cycle).dmemWrapper.response.valid = false :=
    clear.responses 4
  have notReady :
      (initial.run requests cycle).ready (requests cycle) = false := by
    simp [DcacheSystem.ready, Dcache.ready, asks, isStore, noResponse]
  have same := held cycle asks notReady
  have stillIdle :
      (initial.run requests (cycle + 1)).dcache.state = .idle := by
    change
      (initial.run requests cycle).dcache.nextState (requests cycle) _ = _
    simp [Dcache.nextState, idle, hits]
  have stillHits :
      (initial.run requests (cycle + 1)).dcache.hit (requests cycle) =
        true := by
    have selected :
        (initial.run requests (cycle + 1)).dcache.selected
            (requests cycle) =
          (initial.run requests cycle).dcache.lineD (requests cycle)
            (initial.run requests cycle).dmemWrapper.response :=
      Function.update_self _ _ _
    have sameLine := hits
    simp only [Dcache.hit] at sameLine
    rw [Dcache.hit, selected]
    simp [Dcache.lineD, idle, hits, asks, isStore, sameLine]
  constructor
  · simp [memRequestAt, memRequest, Dcache.memReq, same, stillIdle,
      stillHits, asks, isStore]
  · have onItsWay :
        ((initial.run requests (cycle + 1)).dmemWrapper.reqPipe 0).valid =
          true := by
      change
        ((initial.run requests cycle).memRequest (requests cycle)).valid =
          true
      simp [memRequest, Dcache.memReq, idle, hits, asks, isStore]
    rw [← Bool.not_eq_true]
    intro ready
    simp only [DmemWrapper.reqReady, Bool.and_eq_true, List.all_eq_true,
      List.mem_finRange, true_implies, Bool.not_eq_true'] at ready
    rw [ready.1 0] at onItsWay
    cases onItsWay

end Miss

section Examples

/-- Read word zero until it is there, and write it. -/
def readThenWrite (cycle : Nat) : DcacheRequest :=
  if cycle ≤ 13 then { silentRequest with valid := true }
  else if cycle ≤ 24 then
    { silentRequest with valid := true, we := true, dataWr := 1 }
  else silentRequest

/-- Its requests are held. -/
theorem readThenWrite_held : (unused sevens).Held readThenWrite := by
  have silent : ∀ cycle, 24 < cycle → (readThenWrite cycle).valid = false := by
    intro cycle late
    simp only [readThenWrite]
    rw [if_neg (by omega), if_neg (by omega)]
    rfl
  have behaves : Proper readThenWrite ∧ (unused sevens).Held readThenWrite :=
    proper_held_of_passed silent (by decide +kernel)
  exact behaves.2

end Examples

end DcacheSystem

end Tartaruga
