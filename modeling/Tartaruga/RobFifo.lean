import Tartaruga.Clocked
import Tartaruga.CompletionQueue
import Tartaruga.RobWindow
import Mathlib.Data.List.GetD

namespace Tartaruga

/-!
# The reorder buffer is a queue

The abstract machine is a queue completed out of order: it has no slots, no
pointers and no stale fields.  The occupied window, read from the head, is the
queue; every clock edge of the buffer is one cycle of the queue.
-/

/-- The inputs of one cycle of the reorder buffer. -/
structure RobInput where
  alloc : RobAlloc
  wb : RobWb

/-- An element of the abstract queue. -/
abbrev FifoItem := CompletionQueue.Item RobOwn RobPayload

/-- What an element shows when it leaves the queue. -/
def FifoItem.committed (item : FifoItem) (payload : RobPayload) : RobCommit where
  valid := true
  pc := item.own.pc
  instr := item.own.instr
  rdAddr := item.own.addrRd
  result := payload.result
  writeEnable := item.own.writeEnable
  storeToMem := item.own.storeToMem
  newPc := payload.newPc
  branchTaken := payload.branchTaken
  kanataId := item.own.kanataId
  storeBufferIdx := payload.storeBufferIdx

/-- The commit outputs of a cycle in which nothing leaves. -/
def RobCommit.none : RobCommit where
  valid := false
  pc := 0
  instr := 0
  rdAddr := 0
  result := 0
  writeEnable := false
  storeToMem := false
  newPc := 0
  branchTaken := false
  kanataId := 0
  storeBufferIdx := 0

/-- The commit outputs of a queue. -/
def fifoCommit (queue : List FifoItem) : RobCommit :=
  match CompletionQueue.front queue with
  | some item =>
      match item.completion with
      | some (_, payload) => FifoItem.committed item payload
      | none => RobCommit.none
  | none => RobCommit.none

namespace Rob

/-- One clock edge of the reorder buffer under one input. -/
def step (rob : Rob) (input : RobInput) : Rob :=
  rob.clock input.alloc input.wb

/-- The request a cycle makes to the queue: a write-back names the position
of its slot behind the head. -/
def fifoInput
    (rob : Rob)
    (input : RobInput) :
    CompletionQueue.Input RobOwn RobPayload where
  enqueue :=
    if input.alloc.validDecode then some input.alloc.own else none
  complete :=
    if input.wb.validWb then
      some
        (Ring.dist rob.headPtrQ input.wb.robEntryCommit, input.wb.payload)
    else
      none

/-- The requests of a whole run. -/
def fifoStimulus
    (initial : Rob)
    (stimulus : Nat → RobInput)
    (cycle : Nat) :
    CompletionQueue.Input RobOwn RobPayload :=
  (Clocked.run step initial stimulus cycle).fifoInput (stimulus cycle)

/-- The abstract queue at the beginning of every cycle of a run. -/
def fifo
    (initial : Rob)
    (stimulus : Nat → RobInput) :
    Nat → List FifoItem :=
  CompletionQueue.history RobPayload.branchTaken
    (fifoStimulus initial stimulus)

/-- An entry holds what an element of the queue says. -/
structure Holds (entry : RobEntry) (item : FifoItem) : Prop where
  own : entry.own = item.own
  completed : entry.completed = item.completion.isSome
  payload :
    ∀ cycle payload,
      item.completion = some (cycle, payload) →
      entry.payload = payload

/-- The occupied window, read from the head, is the queue. -/
structure Represents (rob : Rob) (queue : List FifoItem) : Prop where
  length : queue.length = rob.occupancy
  holds :
    ∀ slot,
      Ring.dist rob.headPtrQ slot < rob.occupancy →
      ∃ item,
        queue[Ring.dist rob.headPtrQ slot]? = some item ∧
          Holds (rob.robQ slot) item

variable {rob : Rob} {queue : List FifoItem} {input : RobInput}

/-- The buffer after reset is the empty queue. -/
theorem represents_reset (rob : Rob) : rob.reset.Represents [] := by
  constructor
  · simp [occupancy, reset]
  · simp [occupancy, reset]

namespace Represents

variable (represents : rob.Represents queue)
include represents

/-- A commit shows exactly what leaves the queue. -/
theorem commit (wellFormed : rob.WellFormed) :
    rob.commit = fifoCommit queue := by
  cases isFront : CompletionQueue.front queue with
  | none =>
      have silent : rob.commitValid = false := by
        by_contra commits
        simp only [Bool.not_eq_false] at commits
        have occupied := wellFormed.occupancy_pos commits
        obtain ⟨item, atHead, holds⟩ :=
          represents.holds rob.headPtrQ (by simpa using occupied)
        rw [Ring.dist_self] at atHead
        simp only [commitValid, Bool.and_eq_true] at commits
        have leaves :=
          CompletionQueue.front_eq_some.mpr
            ⟨atHead, holds.completed ▸ commits.2⟩
        rw [isFront] at leaves
        cases leaves
      simp [Rob.commit, silent, fifoCommit, isFront, RobCommit.none]
  | some item =>
      obtain ⟨atHead, completed⟩ :=
        CompletionQueue.front_eq_some.mp isFront
      have occupied : 0 < rob.occupancy := by
        rw [← represents.length]
        exact (List.getElem?_eq_some_iff.mp atHead).1
      obtain ⟨held, atPosition, holds⟩ :=
        represents.holds rob.headPtrQ (by simpa using occupied)
      rw [Ring.dist_self, atHead] at atPosition
      obtain rfl := Option.some.inj atPosition
      have commits : rob.commitValid = true := by
        simp only [commitValid, Bool.and_eq_true]
        exact ⟨(wellFormed rob.headPtrQ).mpr (by simpa using occupied),
          holds.completed.trans completed⟩
      obtain ⟨⟨cycle, payload⟩, completion⟩ :=
        Option.isSome_iff_exists.mp completed
      have own := holds.own
      have written := holds.payload cycle payload completion
      simp only [Rob.commit, commits, if_true, fifoCommit, isFront,
        completion, FifoItem.committed, ← own, ← written]
      rfl

/-- A commit happens exactly when an element leaves. -/
theorem commitValid_iff (wellFormed : rob.WellFormed) :
    rob.commitValid = (CompletionQueue.front queue).isSome := by
  have same := congrArg RobCommit.valid (represents.commit wellFormed)
  have concrete : rob.commit.valid = rob.commitValid := by
    unfold Rob.commit
    by_cases commits : rob.commitValid = true <;> simp [commits]
  rw [← concrete, same, fifoCommit]
  cases isFront : CompletionQueue.front queue with
  | none =>
      rfl
  | some item =>
      obtain ⟨done, completion⟩ :=
        Option.isSome_iff_exists.mp
          (CompletionQueue.front_eq_some.mp isFront).2
      simp [completion, FifoItem.committed]

/-- A flush happens exactly when the leaving element takes the rest along. -/
theorem flush_iff (wellFormed : rob.WellFormed) :
    rob.flush =
      CompletionQueue.flushed RobPayload.branchTaken queue := by
  rw [← commit_branchTaken, represents.commit wellFormed, fifoCommit,
    CompletionQueue.flushed]
  cases isFront : CompletionQueue.front queue with
  | none =>
      rfl
  | some item =>
      obtain ⟨done, completion⟩ :=
        Option.isSome_iff_exists.mp
          (CompletionQueue.front_eq_some.mp isFront).2
      simp [completion, FifoItem.committed]

/-- One element leaves exactly when there is a commit. -/
theorem departures_eq (wellFormed : rob.WellFormed) :
    CompletionQueue.departures queue =
      if rob.commitValid = true then 1 else 0 := by
  rw [CompletionQueue.departures, represents.commitValid_iff wellFormed]

/-- A write-back is accepted exactly when it names a waiting element. -/
theorem acceptsWb_iff (wellFormed : rob.WellFormed) :
    rob.acceptsWb input.wb = true ↔
      ∃ position payload item,
        (rob.fifoInput input).complete = some (position, payload) ∧
          queue[position]? = some item := by
  simp only [acceptsWb, Bool.and_eq_true, wellFormed _, fifoInput]
  constructor
  · rintro ⟨valid, inside⟩
    obtain ⟨item, found, _⟩ := represents.holds _ inside
    exact ⟨_, _, item, by rw [if_pos valid], found⟩
  · rintro ⟨position, payload, item, completes, found⟩
    split at completes
    · rename_i valid
      obtain ⟨rfl, rfl⟩ := Prod.mk.inj (Option.some.inj completes)
      have inside := (List.getElem?_eq_some_iff.mp found).1
      rw [represents.length] at inside
      exact ⟨valid, inside⟩
    · cases completes

omit represents in
/-- The entry of an element that stays, after the edge. -/
theorem holds_staying
    {slot : RobIdx}
    {item : FifoItem}
    {cycle : Nat}
    (wellFormed : rob.WellFormed)
    (inside : Ring.dist rob.headPtrQ slot < rob.occupancy)
    (holds : Holds (rob.robQ slot) item) :
    Holds (rob.robD input.alloc input.wb slot)
      (item.completedAt cycle (rob.fifoInput input)
        (Ring.dist rob.headPtrQ slot)) := by
  have notTail : ¬ rob.allocates input.alloc slot := by
    rw [WellFormed.allocates_iff]
    omega
  have reached :
      rob.writesBack input.wb slot ↔
        input.wb.validWb = true ∧
          Ring.dist rob.headPtrQ input.wb.robEntryCommit =
            Ring.dist rob.headPtrQ slot := by
    unfold writesBack acceptsWb
    constructor
    · rintro ⟨accepts, rfl⟩
      simp only [Bool.and_eq_true] at accepts
      exact ⟨accepts.1, rfl⟩
    · rintro ⟨valid, sameDist⟩
      obtain rfl := Ring.dist_injective sameDist
      simp [valid, (wellFormed _).mpr inside]
  have completion :
      (item.completedAt cycle (rob.fifoInput input)
          (Ring.dist rob.headPtrQ slot)).completion =
        if rob.writesBack input.wb slot then some (cycle, input.wb.payload)
        else item.completion := by
    rw [CompletionQueue.completion_completedAt]
    unfold fifoInput
    by_cases valid : input.wb.validWb = true <;> simp [valid, reached]
  constructor
  · rw [robD_own, if_neg notTail, CompletionQueue.own_completedAt]
    exact holds.own
  · rw [robD_completed, if_neg notTail, completion]
    split
    · rfl
    · exact holds.completed
  · intro recordedAt payload recorded
    rw [completion] at recorded
    rw [robD_payload]
    split at recorded
    · rename_i reaches
      rw [if_pos reaches]
      exact (Prod.mk.inj (Option.some.inj recorded)).2
    · rename_i notReached
      rw [if_neg notReached]
      exact holds.payload recordedAt payload recorded

omit represents in
/-- The entry of an element that arrives, after the edge. -/
theorem holds_arriving
    {slot : RobIdx}
    (wellFormed : rob.WellFormed)
    (allocated : rob.allocates input.alloc slot)
    (cycle : Nat) :
    Holds (rob.robD input.alloc input.wb slot)
      { own := input.alloc.own, enqueuedAt := cycle, completion := none } := by
  have notWritten : ¬ rob.writesBack input.wb slot := by
    intro accepted
    have valid := writesBack_valid accepted
    rw [allocated.2, wellFormed.tail_free] at valid
    cases valid
  constructor
  · rw [robD_own, if_pos allocated]
  · rw [robD_completed, if_neg notWritten, if_pos allocated]
    rfl
  · intro _ _ recorded
    cases recorded

omit represents in
/-- One element arrives exactly when decode allocates. -/
theorem arrivals_eq (cycle : Nat) :
    CompletionQueue.arrivals cycle (rob.fifoInput input) =
      if input.alloc.validDecode = true then
        [{ own := input.alloc.own
           enqueuedAt := cycle
           completion := none }]
      else [] := by
  unfold CompletionQueue.arrivals fifoInput
  by_cases allocated : input.alloc.validDecode = true <;>
    simp [allocated]

omit represents in
/-- A slot that is occupied only after the edge has been allocated by it. -/
theorem allocates_of_arrives
    {slot : RobIdx}
    (wellFormed : rob.WellFormed)
    (valid : (rob.robD input.alloc input.wb slot).valid = true)
    (arrives : ¬ Ring.dist rob.headPtrQ slot < rob.occupancy) :
    rob.allocates input.alloc slot := by
  rcases (robD_valid.mp valid).2.2 with allocates | before
  · exact allocates
  · exact (arrives ((wellFormed slot).mp before)).elim

/-- Every clock edge of the buffer is one cycle of the queue. -/
theorem step
    (wellFormed : rob.WellFormed)
    (admitted : rob.Admits input.alloc)
    (cycle : Nat) :
    (rob.step input).Represents
      (CompletionQueue.step RobPayload.branchTaken cycle
        (rob.fifoInput input) queue) := by
  have occupancyNext :=
    wellFormed.occupancy_clock admitted input.wb
  change (rob.step input).occupancy = _ at occupancyNext
  have sameFlush := represents.flush_iff wellFormed
  have leaving := represents.departures_eq wellFormed
  cases flushes : rob.flush with
  | true =>
      rw [flushes] at sameFlush occupancyNext
      rw [if_pos rfl] at occupancyNext
      constructor
      · simp [CompletionQueue.step, ← sameFlush, occupancyNext]
      · intro slot inside
        omega
  | false =>
      rw [flushes] at sameFlush occupancyNext
      rw [if_neg Bool.false_ne_true] at occupancyNext
      have positive := wellFormed.occupancy_pos
      constructor
      · rw [CompletionQueue.length_step sameFlush.symm, leaving, arrivals_eq,
          represents.length, occupancyNext]
        by_cases commits : rob.commitValid = true <;>
          by_cases allocated : input.alloc.validDecode = true <;>
          simp only [commits, allocated, if_true, if_false,
            Bool.false_eq_true, List.length_cons, List.length_nil]
        · have := positive commits
          omega
        · omega
        · omega
        · omega
      · intro slot inside
        have valid :
            (rob.robD input.alloc input.wb slot).valid = true :=
          (wellFormed.preserved admitted input.wb slot).mpr inside
        have shift :=
          WellFormed.dist_headPtrD flushes (robD_valid.mp valid).2.1
        change
          ∃ item,
            (CompletionQueue.step _ cycle (rob.fifoInput input)
                queue)[Ring.dist rob.headPtrD slot]? = some item ∧
              Holds (rob.robD input.alloc input.wb slot) item
        rw [CompletionQueue.getElem?_step sameFlush.symm, leaving, shift,
          represents.length]
        by_cases stays : Ring.dist rob.headPtrQ slot < rob.occupancy
        · obtain ⟨item, found, holds⟩ := represents.holds slot stays
          rw [if_pos stays, found]
          exact ⟨_, rfl, holds_staying wellFormed stays holds⟩
        · have allocated := allocates_of_arrives wellFormed valid stays
          have atEnd := WellFormed.allocates_iff.mp allocated
          rw [if_neg stays, arrivals_eq, if_pos atEnd.1, atEnd.2,
            Nat.sub_self]
          exact ⟨_, rfl, holds_arriving wellFormed allocated cycle⟩

end Represents

section Run

variable
  {stimulus : Nat → RobInput}
  (admitted :
    ∀ cycle,
      (Clocked.run step rob.reset stimulus cycle).Admits
        (stimulus cycle).alloc)
include admitted

/-- In every state of a run the occupied slots form a window. -/
theorem run_wellFormed (cycle : Nat) :
    (Clocked.run step rob.reset stimulus cycle).WellFormed :=
  Clocked.run_invariant (wellFormed_reset rob)
    (fun _ input admits wellFormed =>
      WellFormed.preserved wellFormed admits input.wb)
    admitted cycle

/-- In every state of a run the buffer is the queue of that cycle. -/
theorem run_represents (cycle : Nat) :
    (Clocked.run step rob.reset stimulus cycle).Represents
      (fifo rob.reset stimulus cycle) := by
  induction cycle with
  | zero =>
      exact represents_reset rob
  | succ cycle inductionHypothesis =>
      exact inductionHypothesis.step (run_wellFormed admitted cycle)
        (admitted cycle) cycle

end Run

/--
The reorder buffer refines a first-in first-out queue of capacity fifteen.  In
every cycle of every run in which nothing is allocated into a full or flushing
buffer:

* the occupied slots are the range from head to tail and the tail is free;
* they are, in order, the elements of the queue, of which there are at most
  fifteen, and an allocation becomes its last element;
* a write-back is accepted exactly when it names a waiting element;
* the commit outputs show the completed front, which was allocated with what
  it shows and carries the latest payload accepted for it after that;
* commits follow the order of allocation, and nothing allocated up to the
  commit of a taken branch commits after it.
-/
theorem refines_fifo
    {stimulus : Nat → RobInput}
    (admitted :
      ∀ cycle,
        (Clocked.run step rob.reset stimulus cycle).Admits
          (stimulus cycle).alloc)
    (cycle : Nat) :
    let state := Clocked.run step rob.reset stimulus cycle
    let queue := fifo rob.reset stimulus cycle
    (∀ slot,
        (state.robQ slot).valid = true ↔
          Ring.dist state.headPtrQ slot <
            Ring.dist state.headPtrQ state.tailPtrQ) ∧
      (state.robQ state.tailPtrQ).valid = false ∧
      state.Represents queue ∧
      queue.length ≤ 15 ∧
      ((stimulus cycle).alloc.validDecode = true →
        (fifo rob.reset stimulus (cycle + 1)).getLast? =
          some
            { own := (stimulus cycle).alloc.own
              enqueuedAt := cycle
              completion := none }) ∧
      (state.acceptsWb (stimulus cycle).wb = true ↔
        ∃ position payload item,
          (state.fifoInput (stimulus cycle)).complete =
              some (position, payload) ∧
            queue[position]? = some item) ∧
      state.commit = fifoCommit queue ∧
      (∀ item,
        CompletionQueue.front queue = some item →
        CompletionQueue.Provenance RobPayload.branchTaken
          (fifoStimulus rob.reset stimulus) cycle item) ∧
      ∀ earlier first item,
        earlier < cycle →
        CompletionQueue.front (fifo rob.reset stimulus earlier) =
            some first →
        CompletionQueue.front queue = some item →
        first.enqueuedAt < item.enqueuedAt ∧
          ((Clocked.run step rob.reset stimulus earlier).flush = true →
            earlier < item.enqueuedAt) := by
  have wellFormed := run_wellFormed admitted cycle
  have represents := run_represents admitted cycle
  refine ⟨wellFormed, wellFormed.tail_free, represents, ?_, ?_,
    represents.acceptsWb_iff wellFormed, represents.commit wellFormed,
    ?_, ?_⟩
  · rw [represents.length]
    exact Nat.le_of_lt_succ (Ring.dist_lt _ _)
  · intro allocated
    have noFlush := (admitted cycle allocated).2
    rw [commit_branchTaken, represents.flush_iff wellFormed] at noFlush
    change
      (CompletionQueue.step RobPayload.branchTaken cycle
        (fifoStimulus rob.reset stimulus cycle)
        (fifo rob.reset stimulus cycle)).getLast? = _
    simp [CompletionQueue.step, noFlush, CompletionQueue.arrivals,
      fifoStimulus, fifoInput, allocated]
  · intro item leaves
    exact CompletionQueue.provenance_of_mem
      (List.mem_of_getElem? (CompletionQueue.front_eq_some.mp leaves).1)
  · intro earlier first item ordered firstLeaves leaves
    refine ⟨CompletionQueue.front_ordered ordered firstLeaves leaves, ?_⟩
    intro flushes
    rw [(run_represents admitted earlier).flush_iff
      (run_wellFormed admitted earlier)] at flushes
    exact CompletionQueue.front_after_flush ordered flushes leaves

/-- A cycle without an allocation. -/
def idleAlloc : RobAlloc where
  validDecode := false
  pc := 0
  instr := 0
  rdAddr := 0
  writeEnable := false
  storeToMem := false
  kanataId := 0

/-- A cycle without a write-back. -/
def idleWb : RobWb where
  robEntryCommit := 0
  validWb := false
  result := 0
  newPc := 0
  branchTaken := false
  storeBufferIdx := 0

/--
Two writers of x5, a jump and an instruction behind it are allocated.  The jump
and the second writer are written back before the first one.
-/
def overtaking (cycle : Nat) : RobInput where
  alloc :=
    [ { idleAlloc with
          validDecode := true, pc := 64, rdAddr := 5, writeEnable := true },
      { idleAlloc with
          validDecode := true, pc := 68, rdAddr := 5, writeEnable := true },
      { idleAlloc with validDecode := true, pc := 72 },
      { idleAlloc with validDecode := true, pc := 76 } ].getD cycle idleAlloc
  wb :=
    [ idleWb,
      idleWb,
      { idleWb with robEntryCommit := 1, validWb := true, result := 9 },
      { idleWb with
          robEntryCommit := 2, validWb := true, newPc := 128,
          branchTaken := true },
      { idleWb with robEntryCommit := 0, validWb := true, result := 7 } ].getD
      cycle idleWb

/-- A reorder buffer before reset. -/
def beforeReset : Rob where
  robQ := fun _ => RobEntry.zero
  headPtrQ := 3
  tailPtrQ := 5

/-- That run allocates neither into a full nor into a flushing buffer. -/
theorem overtaking_admits (cycle : Nat) :
    (Clocked.run step beforeReset.reset overtaking cycle).Admits
      (overtaking cycle).alloc := by
  rcases Nat.lt_or_ge cycle 4 with early | late
  · have admitted :
        ∀ cycle,
          cycle < 4 →
          (Clocked.run step beforeReset.reset overtaking cycle).Admits
            (overtaking cycle).alloc := by
      decide +kernel
    exact admitted cycle early
  · intro allocated
    have idle : (overtaking cycle).alloc = idleAlloc :=
      List.getD_eq_default _ _ late
    rw [idle] at allocated
    cases allocated

/--
In cycle four of that run two completed instructions wait for the first one.
All three commit in the order of allocation, and the jump empties the queue.
-/
theorem refines_fifo_overtaking :
    let state := Clocked.run step beforeReset.reset overtaking
    let queue := fifo beforeReset.reset overtaking
    (∀ cycle,
        (state cycle).Represents (queue cycle) ∧
          (state cycle).commit = fifoCommit (queue cycle)) ∧
      (queue 4).map (fun item => (item.own.pc, item.completion.isSome)) =
        [(64, false), (68, true), (72, true), (76, false)] ∧
      [4, 5, 6, 7].map (fun cycle =>
          ((state cycle).commit.pc, (state cycle).commit.result)) =
        [(0, 0), (64, 7), (68, 9), (72, 0)] ∧
      (state 7).flush = true ∧
      queue 8 = [] := by
  intro state queue
  refine ⟨?_, by decide +kernel, by decide +kernel, by decide +kernel,
    by decide +kernel⟩
  intro cycle
  obtain ⟨_, _, represents, _, _, _, commits, _⟩ :=
    refines_fifo overtaking_admits cycle
  exact ⟨represents, commits⟩

end Rob

end Tartaruga
