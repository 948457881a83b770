import Tartaruga.Clocked
import Tartaruga.MemoryLines

namespace Tartaruga

/-!
# The memory behind its pipeline

Requests travel through one shift register to the memory and their responses
through another one back.  Every request is answered, with the line as the
requests in front of it left it, exactly twice the length of a register later.
-/

namespace DmemWrapper

/-- Every request that is served gives a response. -/
theorem rspPipeLoad_valid (wrapper : DmemWrapper) (memory : Memory) :
    (wrapper.rspPipeLoad memory).valid = wrapper.served.valid := by
  simp only [rspPipeLoad]
  split
  · rename_i valid
    exact valid.symm
  · rename_i silent
    exact (Bool.eq_false_iff.mpr silent).symm

/-- Only a read loads a line. -/
theorem rspPipeLoad_dataLine (wrapper : DmemWrapper) (memory : Memory) :
    (wrapper.rspPipeLoad memory).dataLine =
      if wrapper.served.valid = true ∧ wrapper.served.we = false then
        Line.read memory wrapper.served.addr
      else
        (wrapper.rspPipe 0).dataLine := by
  simp only [rspPipeLoad]
  cases wrapper.served.valid <;> cases wrapper.served.we <;> rfl

section Shift

variable (wrapper : DmemWrapper) (request : MemRequest) (memory : Memory)
  (stage : Fin 4)

/-- Requests move on by one stage. -/
theorem reqPipe_succ :
    (wrapper.clock request memory).reqPipe stage.succ =
      wrapper.reqPipe stage.castSucc := by
  match stage with
  | 0 | 1 | 2 | 3 => rfl

/-- Responses move on by one stage. -/
theorem rspPipe_succ :
    (wrapper.clock request memory).rspPipe stage.succ =
      wrapper.rspPipe stage.castSucc := by
  match stage with
  | 0 | 1 | 2 | 3 => rfl

end Shift

end DmemWrapper

/-- The wrapper together with the memory behind it. -/
structure DmemSystem where
  wrapper : DmemWrapper
  memory : Memory

namespace DmemSystem

/-- One clock edge under the request of the cycle. -/
def clock (system : DmemSystem) (request : MemRequest) : DmemSystem where
  wrapper := system.wrapper.clock request system.memory
  memory := system.wrapper.memoryD system.memory

/-- Both pipes are empty. -/
structure Drained (system : DmemSystem) : Prop where
  requests : ∀ stage, (system.wrapper.reqPipe stage).valid = false
  responses : ∀ stage, (system.wrapper.rspPipe stage).valid = false

/-- The memory after a request has met it. -/
def served (memory : Memory) (request : MemRequest) : Memory :=
  if request.valid && request.we then
    Line.write memory request.addr request.dataWr
  else
    memory

/-- The memory after the requests of the first cycles, in order. -/
def afterRequests
    (memory : Memory)
    (requests : Nat → MemRequest) :
    Nat → Memory
  | 0 => memory
  | cycle + 1 => served (afterRequests memory requests cycle) (requests cycle)

/-- The line that the last write among the first requests left, or the line
that the memory held in the beginning. -/
def latestLine
    (memory : Memory)
    (requests : Nat → MemRequest)
    (addr : Bus32) :
    Nat → Line
  | 0 => Line.read memory addr
  | cycle + 1 =>
      if (requests cycle).valid = true ∧ (requests cycle).we = true ∧
          (requests cycle).addr = addr then
        (requests cycle).dataWr
      else
        latestLine memory requests addr cycle

/-- Every request names a line inside the array. -/
def Proper (requests : Nat → MemRequest) : Prop :=
  ∀ cycle, (requests cycle).valid = true → Line.IsLine (requests cycle).addr

/-- A line of the memory is what was written to it last. -/
theorem read_afterRequests
    {requests : Nat → MemRequest}
    {addr : Bus32}
    (proper : Proper requests)
    (isLine : Line.IsLine addr)
    (memory : Memory)
    (cycle : Nat) :
    Line.read (afterRequests memory requests cycle) addr =
      latestLine memory requests addr cycle := by
  induction cycle with
  | zero =>
      rfl
  | succ cycle inductionHypothesis =>
      simp only [afterRequests, latestLine, served, Bool.and_eq_true]
      by_cases writes :
          (requests cycle).valid = true ∧ (requests cycle).we = true
      · rw [if_pos writes, (proper cycle writes.1).read_write isLine,
          inductionHypothesis]
        simp only [writes.1, writes.2, true_and, eq_comm]
      · rw [if_neg writes, if_neg fun named => writes ⟨named.1, named.2.1⟩]
        exact inductionHypothesis

section Run

variable (system : DmemSystem) (requests : Nat → MemRequest)

/-- The request that meets the memory entered five cycles ago. -/
theorem run_served (cycle : Nat) :
    (Clocked.run clock system requests (cycle + 5)).wrapper.served =
      requests cycle := by
  apply Clocked.shiftRegister_input
    (fun cycle => (Clocked.run clock system requests cycle).wrapper.reqPipe)
    requests
  · intro cycle
    rfl
  · intro cycle stage
    exact DmemWrapper.reqPipe_succ _ _ _ stage

/-- The response presented was loaded five cycles ago. -/
theorem run_response (cycle : Nat) :
    (Clocked.run clock system requests (cycle + 5)).wrapper.response =
      (Clocked.run clock system requests cycle).wrapper.rspPipeLoad
        (Clocked.run clock system requests cycle).memory := by
  apply Clocked.shiftRegister_input
    (fun cycle => (Clocked.run clock system requests cycle).wrapper.rspPipe)
    fun cycle =>
      (Clocked.run clock system requests cycle).wrapper.rspPipeLoad
        (Clocked.run clock system requests cycle).memory
  · intro cycle
    rfl
  · intro cycle stage
    exact DmemWrapper.rspPipe_succ _ _ _ stage

variable {system} (drained : system.Drained)
include drained

/-- No request meets the memory in the first five cycles. -/
theorem run_served_early
    {cycle : Nat}
    (early : cycle < 5) :
    (Clocked.run clock system requests cycle).wrapper.served.valid =
      false := by
  obtain ⟨origin, _, holds⟩ :=
    Clocked.shiftRegister_initial
      (fun cycle => (Clocked.run clock system requests cycle).wrapper.reqPipe)
      (fun _ stage => DmemWrapper.reqPipe_succ _ _ _ stage)
      cycle 4 (Nat.le_of_lt_succ early)
  exact (congrArg MemRequest.valid holds).trans (drained.requests origin)

/-- No response is presented in the first ten cycles. -/
theorem run_response_early
    {cycle : Nat}
    (early : cycle < 10) :
    (Clocked.run clock system requests cycle).wrapper.response.valid =
      false := by
  by_cases first : cycle < 5
  · obtain ⟨origin, _, holds⟩ :=
      Clocked.shiftRegister_initial
        (fun cycle =>
          (Clocked.run clock system requests cycle).wrapper.rspPipe)
        (fun _ stage => DmemWrapper.rspPipe_succ _ _ _ stage)
        cycle 4 (Nat.le_of_lt_succ first)
    exact (congrArg MemResponse.valid holds).trans (drained.responses origin)
  · obtain ⟨loaded, rfl⟩ := Nat.exists_eq_add_of_le (Nat.le_of_not_lt first)
    rw [Nat.add_comm 5 loaded, run_response, DmemWrapper.rspPipeLoad,
      run_served_early requests drained (by omega)]
    rfl

/-- The memory does not change in the first five cycles. -/
theorem run_memory_early
    {cycle : Nat}
    (early : cycle ≤ 5) :
    (Clocked.run clock system requests cycle).memory = system.memory := by
  induction cycle with
  | zero =>
      rfl
  | succ cycle inductionHypothesis =>
      have idle := run_served_early requests drained early
      change (Clocked.run clock system requests cycle).wrapper.memoryD _ = _
      rw [DmemWrapper.memoryD, idle, Bool.false_and,
        if_neg Bool.false_ne_true]
      exact inductionHypothesis (Nat.le_of_succ_le early)

/-- The memory lags five cycles behind the requests. -/
theorem run_memory (cycle : Nat) :
    (Clocked.run clock system requests (cycle + 5)).memory =
      afterRequests system.memory requests cycle := by
  induction cycle with
  | zero =>
      exact run_memory_early requests drained (Nat.le_refl 5)
  | succ cycle inductionHypothesis =>
      have next :
          (Clocked.run clock system requests (cycle + 1 + 5)).memory =
            (Clocked.run clock system requests
              (cycle + 5)).wrapper.memoryD
                (Clocked.run clock system requests (cycle + 5)).memory := by
        rw [Nat.add_right_comm cycle 1 5]
        rfl
      rw [next, DmemWrapper.memoryD, run_served, inductionHypothesis]
      rfl

/--
A pipelined memory that starts empty is a memory with a latency.  For every
sequence of requests to lines inside the array and every cycle:

* nothing is answered in the first ten cycles, and after that exactly what was
  requested ten cycles before, under its address;
* a read is answered with the line that the last write before it left;
* the memory holds, with a lag of five cycles, the writes in request order.
-/
theorem linearizable
    (proper : Proper requests)
    (cycle : Nat) :
    (cycle < 10 →
        (Clocked.run clock system requests cycle).wrapper.response.valid =
          false) ∧
      (Clocked.run clock system requests
          (cycle + 10)).wrapper.response.valid =
        (requests cycle).valid ∧
      ((requests cycle).valid = true →
        (Clocked.run clock system requests
            (cycle + 10)).wrapper.response.addr =
          (requests cycle).addr ∧
        ((requests cycle).we = false →
          (Clocked.run clock system requests
              (cycle + 10)).wrapper.response.dataLine =
            latestLine system.memory requests (requests cycle).addr
              cycle)) ∧
      (Clocked.run clock system requests (cycle + 5)).memory =
        afterRequests system.memory requests cycle ∧
      (cycle ≤ 5 →
        (Clocked.run clock system requests cycle).memory =
          system.memory) := by
  have loaded :
      (Clocked.run clock system requests (cycle + 10)).wrapper.response =
        (Clocked.run clock system requests
          (cycle + 5)).wrapper.rspPipeLoad
            (afterRequests system.memory requests cycle) := by
    rw [show cycle + 10 = cycle + 5 + 5 from rfl, run_response,
      run_memory requests drained]
  refine ⟨run_response_early requests drained, ?_, ?_,
    run_memory requests drained cycle, run_memory_early requests drained⟩
  · rw [loaded, DmemWrapper.rspPipeLoad, run_served]
    cases (requests cycle).valid <;> rfl
  · intro valid
    rw [loaded, DmemWrapper.rspPipeLoad, run_served, if_pos valid]
    refine ⟨rfl, ?_⟩
    intro isRead
    simp only [isRead, Bool.false_eq_true, if_false]
    exact read_afterRequests proper (proper cycle valid) system.memory cycle

end Run

/-- A request that is none. -/
def noRequest : MemRequest where
  valid := false
  addr := 0
  we := false
  dataWr := fun _ => 0

/-- A line is written and read in the next cycle. -/
def writeThenRead : Nat → MemRequest
  | 0 => { valid := true, addr := 16, we := true, dataWr := fun _ => 7 }
  | 1 => { valid := true, addr := 16, we := false, dataWr := fun _ => 0 }
  | _ => noRequest

/-- The read is answered in cycle eleven with what was written. -/
theorem linearizable_writeThenRead :
    let system : DmemSystem :=
      { wrapper :=
          { reqPipe := fun _ => noRequest
            rspPipe := fun _ => default }
        memory := fun _ => 0 }
    (Clocked.run clock system writeThenRead 11).wrapper.response.dataLine =
      fun _ => 7 := by
  intro system
  have drained : system.Drained := ⟨fun _ => rfl, fun _ => rfl⟩
  have proper : Proper writeThenRead := by
    intro cycle valid
    match cycle with
    | 0 | 1 =>
        constructor <;> decide
    | cycle + 2 =>
        cases valid
  have answered := (linearizable writeThenRead drained proper 1).2.2.1 rfl
  rw [answered.2 rfl]
  rfl

end DmemSystem

end Tartaruga
