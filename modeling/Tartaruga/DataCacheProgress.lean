import Tartaruga.DataCacheFlat
import Tartaruga.Progress

namespace Tartaruga

/-!
# The data cache makes progress

A request that is held is acknowledged.  A miss ends with the next response,
whatever it answers; then the line is installed under the request, and a write
waits for one response more.
-/

namespace DcacheSystem

variable {system : DcacheSystem} {request : DcacheRequest} {delay : Nat}

/-- A response arrives after so many cycles. -/
inductive Due (system : DcacheSystem) : Nat → Prop where
  | response (stage : Fin 5) :
      (system.dmemWrapper.rspPipe stage).valid = true →
      Due system (4 - stage.val)
  | request (stage : Fin 5) :
      (system.dmemWrapper.reqPipe stage).valid = true →
      Due system (9 - stage.val)

/-- A response that is due now is there. -/
theorem Due.responds (due : system.Due 0) :
    system.dmemWrapper.response.valid = true := by
  generalize now : 0 = delay at due
  cases due with
  | response stage valid =>
      have bound := stage.isLt
      obtain rfl : stage = 4 := Fin.ext (by change stage.val = 4; omega)
      exact valid
  | request stage valid =>
      have bound := stage.isLt
      omega

/-- Every cycle brings it nearer. -/
theorem Due.clock
    (due : system.Due (delay + 1))
    (request : DcacheRequest) :
    (system.clock request).Due delay := by
  generalize later : delay + 1 = total at due
  cases due with
  | response stage valid =>
      cases stage using Fin.lastCases with
      | last =>
          cases later
      | cast stage =>
          have bound := stage.isLt
          have sameDelay : delay = 4 - stage.succ.val := by
            simp only [Fin.val_castSucc, Fin.val_succ] at later ⊢
            omega
          rw [sameDelay]
          refine .response stage.succ ?_
          rw [(pipes_succ stage).2]
          exact valid
  | request stage valid =>
      cases stage using Fin.lastCases with
      | last =>
          have sameDelay : delay = 4 - (0 : Fin 5).val := by
            change delay + 1 = 9 - 4 at later
            change delay = 4 - 0
            omega
          rw [sameDelay]
          refine .response 0 ?_
          change (system.dmemWrapper.rspPipeLoad system.memory).valid = true
          rw [DmemWrapper.rspPipeLoad_valid]
          exact valid
      | cast stage =>
          have bound := stage.isLt
          have sameDelay : delay = 9 - stage.succ.val := by
            simp only [Fin.val_castSucc, Fin.val_succ] at later ⊢
            omega
          rw [sameDelay]
          refine .request stage.succ ?_
          rw [(pipes_succ stage).1]
          exact valid

/-- A request to the memory is answered after ten cycles. -/
theorem due_clock
    (presented : (system.memRequest request).valid = true) :
    (system.clock request).Due 9 :=
  .request 0 presented

/-- If the memory is not ready, a response is due. -/
theorem exists_due (busy : system.dmemWrapper.reqReady = false) :
    ∃ delay, delay ≤ 9 ∧ system.Due delay := by
  rw [DmemWrapper.reqReady, Bool.and_eq_false_iff] at busy
  rcases busy with requested | answered
  · obtain ⟨stage, _, valid⟩ := List.all_eq_false.mp requested
    rw [Bool.not_eq_true', Bool.not_eq_false] at valid
    exact ⟨9 - stage.val, Nat.sub_le 9 _, .request stage valid⟩
  · obtain ⟨stage, _, valid⟩ := List.all_eq_false.mp answered
    rw [Bool.not_eq_true', Bool.not_eq_false] at valid
    exact ⟨4 - stage.val, by omega, .response stage valid⟩

section Hit

variable (idle : system.dcache.state = .idle)
  (hits : system.dcache.hit request = true)

include idle hits in
/-- A request that hits goes on hitting. -/
theorem hit_clock :
    (system.clock request).dcache.state = .idle ∧
      (system.clock request).dcache.hit request = true := by
  have kept :
      (system.dcache.lineD request system.dmemWrapper.response).valid =
          (system.dcache.selected request).valid ∧
        (system.dcache.lineD request system.dmemWrapper.response).tag =
          (system.dcache.selected request).tag := by
    simp only [Dcache.lineD, idle]
    split
    · exact ⟨rfl, rfl⟩
    · exact ⟨rfl, rfl⟩
  have selected :
      (system.clock request).dcache.selected request =
        system.dcache.lineD request system.dmemWrapper.response :=
    Function.update_self _ _ _
  constructor
  · change system.dcache.nextState request _ = _
    simp only [Dcache.nextState, idle, hits, Bool.not_true, Bool.and_false,
      Bool.false_eq_true, if_false]
  · rw [Dcache.hit, selected, kept.1, kept.2]
    exact hits

/-- A line that is loaded is hit. -/
theorem hit_clock_of_loadLine
    (loads : system.dcache.state = .loadLine)
    (request : DcacheRequest) :
    (system.clock request).dcache.state = .idle ∧
      (system.clock request).dcache.hit request = true := by
  have selected :
      (system.clock request).dcache.selected request =
        system.dcache.lineD request system.dmemWrapper.response :=
    Function.update_self _ _ _
  constructor
  · change system.dcache.nextState request _ = _
    simp only [Dcache.nextState, loads]
  · rw [Dcache.hit, selected, Dcache.lineD, loads]
    simp

include idle hits in
/-- A write that hits is presented to the memory. -/
theorem memRequest_valid_of_write
    (asks : request.valid = true)
    (writes : request.we = true) :
    (system.memRequest request).valid = true := by
  simp [memRequest, Dcache.memReq, idle, hits, asks, writes]

end Hit

/-- How many cycles a request still waits at most. -/
inductive Waits (system : DcacheSystem) (request : DcacheRequest) :
    Nat → Prop where
  | read :
      system.dcache.state = .idle →
      system.dcache.hit request = true →
      request.we = false →
      Waits system request 0
  | written {delay : Nat} :
      system.dcache.state = .idle →
      system.dcache.hit request = true →
      request.we = true →
      system.Due delay →
      Waits system request delay
  | write :
      system.dcache.state = .idle →
      system.dcache.hit request = true →
      request.we = true →
      Waits system request 10
  | loadLine :
      system.dcache.state = .loadLine →
      Waits system request 11
  | missDue {delay : Nat} :
      system.dcache.state = .miss →
      system.Due delay →
      Waits system request (delay + 12)
  | missFree :
      system.dcache.state = .miss →
      system.dmemWrapper.reqReady = true →
      Waits system request 22
  | missing :
      system.dcache.state = .idle →
      system.dcache.hit request = false →
      Waits system request 23

/-- A request that hits waits for ten cycles at most. -/
theorem exists_waits_of_hit
    (idle : system.dcache.state = .idle)
    (hits : system.dcache.hit request = true) :
    ∃ rank, rank ≤ 10 ∧ system.Waits request rank := by
  cases writes : request.we with
  | true =>
      exact ⟨10, Nat.le_refl 10, .write idle hits writes⟩
  | false =>
      exact ⟨0, by decide, .read idle hits writes⟩

/-- A request that has missed waits for 22 cycles at most. -/
theorem exists_waits_of_miss
    (misses : system.dcache.state = .miss)
    (request : DcacheRequest) :
    ∃ rank, rank ≤ 22 ∧ system.Waits request rank := by
  cases ready : system.dmemWrapper.reqReady with
  | true =>
      exact ⟨22, Nat.le_refl 22, .missFree misses ready⟩
  | false =>
      obtain ⟨delay, inTime, due⟩ := exists_due ready
      exact ⟨delay + 12, by omega, .missDue misses due⟩

/-- Every request waits for 23 cycles at most. -/
theorem exists_waits (system : DcacheSystem) (request : DcacheRequest) :
    ∃ rank, rank ≤ 23 ∧ system.Waits request rank := by
  cases state : system.dcache.state with
  | idle =>
      cases hits : system.dcache.hit request with
      | true =>
          obtain ⟨rank, inTime, waits⟩ := exists_waits_of_hit state hits
          exact ⟨rank, by omega, waits⟩
      | false =>
          exact ⟨23, Nat.le_refl 23, .missing state hits⟩
  | miss =>
      obtain ⟨rank, inTime, waits⟩ := exists_waits_of_miss state request
      exact ⟨rank, by omega, waits⟩
  | loadLine =>
      exact ⟨11, by decide, .loadLine state⟩

/-- A response ends a miss. -/
theorem state_clock_of_miss
    (misses : system.dcache.state = .miss)
    (request : DcacheRequest) :
    (system.clock request).dcache.state =
      if system.dmemWrapper.response.valid then .loadLine else .miss := by
  change system.dcache.nextState request _ = _
  simp only [Dcache.nextState, misses]

/-- A request that is not acknowledged waits one cycle less in the next
cycle. -/
theorem Waits.clock
    {rank : Nat}
    (waits : system.Waits request rank)
    (asks : request.valid = true)
    (notReady : system.ready request = false) :
    ∃ lower, lower < rank ∧ (system.clock request).Waits request lower := by
  cases waits with
  | read idle hits reads =>
      simp [ready, Dcache.ready, idle, hits, reads] at notReady
  | written idle hits writes due =>
      obtain ⟨idleNext, hitsNext⟩ := hit_clock idle hits
      cases rank with
      | zero =>
          simp [ready, Dcache.ready, idle, hits, writes, due.responds]
            at notReady
      | succ delay =>
          exact
            ⟨delay, Nat.lt_succ_self delay,
              .written idleNext hitsNext writes (due.clock request)⟩
  | write idle hits writes =>
      obtain ⟨idleNext, hitsNext⟩ := hit_clock idle hits
      exact
        ⟨9, by decide,
          .written idleNext hitsNext writes
            (due_clock (memRequest_valid_of_write idle hits asks writes))⟩
  | loadLine loads =>
      obtain ⟨idleNext, hitsNext⟩ := hit_clock_of_loadLine loads request
      obtain ⟨rank, inTime, waits⟩ := exists_waits_of_hit idleNext hitsNext
      exact ⟨rank, Nat.lt_succ_of_le inTime, waits⟩
  | @missDue delay misses due =>
      have next := state_clock_of_miss misses request
      cases responds : system.dmemWrapper.response.valid with
      | true =>
          rw [responds, if_pos rfl] at next
          exact ⟨11, by omega, .loadLine next⟩
      | false =>
          rw [responds, if_neg Bool.false_ne_true] at next
          cases delay with
          | zero =>
              rw [due.responds] at responds
              cases responds
          | succ delay =>
              exact ⟨delay + 12, by omega, .missDue next (due.clock request)⟩
  | missFree misses free =>
      have next := state_clock_of_miss misses request
      have presented : (system.memRequest request).valid = true := by
        simp [memRequest, Dcache.memReq, misses, free]
      cases responds : system.dmemWrapper.response.valid with
      | true =>
          rw [responds, if_pos rfl] at next
          exact ⟨11, by decide, .loadLine next⟩
      | false =>
          rw [responds, if_neg Bool.false_ne_true] at next
          exact ⟨9 + 12, by decide, .missDue next (due_clock presented)⟩
  | missing idle noHit =>
      have next : (system.clock request).dcache.state = .miss := by
        change system.dcache.nextState request _ = _
        simp only [Dcache.nextState, idle, asks, noHit, Bool.not_false,
          Bool.and_self, if_true]
      obtain ⟨rank, inTime, waits⟩ := exists_waits_of_miss next request
      exact ⟨rank, Nat.lt_succ_of_le inTime, waits⟩

section Run

variable {initial : DcacheSystem} {requests : Nat → DcacheRequest}
  {start : Nat}

/-- In a situation in which requests are held until they are acknowledged, or
until something else happens, one of both happens within 23 cycles. -/
theorem acknowledges_or_within
    (situation goal : Nat → Prop)
    (asks : ∀ cycle, situation cycle → (requests cycle).valid = true)
    (held :
      ∀ cycle,
        situation cycle →
        ¬ goal cycle →
        (initial.run requests cycle).ready (requests cycle) = false →
        requests (cycle + 1) = requests cycle ∧ situation (cycle + 1))
    (holds : situation start) :
    Clocked.Within
      (fun cycle =>
        situation cycle ∧
          (goal cycle ∨ initial.acknowledges requests cycle = true))
      start 23 := by
  obtain ⟨rank, inTime, waits⟩ :=
    exists_waits (initial.run requests start) (requests start)
  refine Clocked.Within.of_le ?_ inTime
  refine
    Clocked.within_of_rank
      (fun cycle rank =>
        situation cycle ∧
          (initial.run requests cycle).Waits (requests cycle) rank)
      ?_ ⟨holds, waits⟩
  rintro cycle rank ⟨holds, waits⟩
  by_cases reached : goal cycle
  · exact .inl ⟨holds, .inl reached⟩
  · cases ready : (initial.run requests cycle).ready (requests cycle) with
    | true =>
        refine .inl ⟨holds, .inr ?_⟩
        rw [acknowledges, asks cycle holds, ready]
        rfl
    | false =>
        obtain ⟨same, holdsNext⟩ := held cycle holds reached ready
        obtain ⟨lower, below, next⟩ := waits.clock (asks cycle holds) ready
        refine .inr ⟨lower, below, holdsNext, ?_⟩
        rw [same]
        exact next

/--
From every state of the cache, of the pipes and of the memory, a request that
is held is acknowledged within 23 cycles: whatever was asked before, and
whatever is still on its way.
-/
theorem acknowledges_within
    (held : initial.Held requests)
    (asks : (requests start).valid = true) :
    Clocked.Within
      (fun cycle => initial.acknowledges requests cycle = true) start 23 := by
  have within :=
    acknowledges_or_within (fun cycle => (requests cycle).valid = true)
      (fun _ => False) (fun _ => id)
      (fun cycle asks _ notReady => by
        have same := held cycle asks notReady
        exact ⟨same, same ▸ asks⟩)
      asks
  exact
    within.imp fun _ _ reached =>
      reached.2.resolve_left id

end Run

/-- A write to word zero. -/
def heldWrite : DcacheRequest where
  addr := 0
  dataWr := 1
  we := true
  valid := true

/-- A write that misses is acknowledged. -/
theorem acknowledges_within_heldWrite :
    Clocked.Within
      (fun cycle =>
        (unused sevens).acknowledges (fun _ => heldWrite) cycle = true)
      0 23 :=
  acknowledges_within (fun _ _ _ => rfl) rfl

end DcacheSystem

end Tartaruga
