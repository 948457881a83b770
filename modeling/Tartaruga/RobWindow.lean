import Tartaruga.RobSource
import Tartaruga.Ring

namespace Tartaruga

/-!
# The occupied window of the reorder buffer

One specification lemma for each part of an entry that a clock edge can touch,
and the ring invariant: the occupied slots are exactly those from the head up
to, and not including, the tail.
-/

/-- The part of an entry that allocation writes. -/
structure RobOwn where
  pc : Bus32
  instr : Bus32
  addrRd : RegAddr
  writeEnable : Bool
  storeToMem : Bool
  kanataId : Nat
  deriving Repr, DecidableEq

/-- The part of an entry that write-back writes. -/
structure RobPayload where
  result : Bus32
  newPc : Bus32
  branchTaken : Bool
  storeBufferIdx : StoreBufferIdx
  deriving Repr, DecidableEq

/-- The allocated part of an entry. -/
def RobEntry.own (entry : RobEntry) : RobOwn where
  pc := entry.pc
  instr := entry.instr
  addrRd := entry.addrRd
  writeEnable := entry.writeEnable
  storeToMem := entry.storeToMem
  kanataId := entry.kanataId

/-- The written-back part of an entry. -/
def RobEntry.payload (entry : RobEntry) : RobPayload where
  result := entry.result
  newPc := entry.newPc
  branchTaken := entry.branchTaken
  storeBufferIdx := entry.storeBufferIdx

/-- The part of an entry that this allocation writes. -/
def RobAlloc.own (alloc : RobAlloc) : RobOwn where
  pc := alloc.pc
  instr := alloc.instr
  addrRd := alloc.rdAddr
  writeEnable := alloc.writeEnable
  storeToMem := alloc.storeToMem
  kanataId := alloc.kanataId

/-- The part of an entry that this write-back writes. -/
def RobWb.payload (wb : RobWb) : RobPayload where
  result := wb.result
  newPc := wb.newPc
  branchTaken := wb.branchTaken
  storeBufferIdx := wb.storeBufferIdx

/-- An entry after it has been allocated. -/
def RobEntry.allocated (entry : RobEntry) (alloc : RobAlloc) : RobEntry :=
  { entry with
    valid := true
    pc := alloc.pc
    instr := alloc.instr
    addrRd := alloc.rdAddr
    writeEnable := alloc.writeEnable
    storeToMem := alloc.storeToMem
    completed := false
    kanataId := alloc.kanataId }

/-- An entry after it has been written back. -/
def RobEntry.writtenBack (entry : RobEntry) (wb : RobWb) : RobEntry :=
  { entry with
    completed := true
    result := wb.result
    newPc := wb.newPc
    branchTaken := wb.branchTaken
    storeBufferIdx := wb.storeBufferIdx }

/-- An entry after it has been freed. -/
def RobEntry.freed (entry : RobEntry) : RobEntry :=
  { entry with valid := false }

namespace Rob

variable {rob : Rob} {alloc : RobAlloc} {wb : RobWb} {slot : RobIdx}

/-- Allocation in this cycle takes the slot. -/
def allocates (rob : Rob) (alloc : RobAlloc) (slot : RobIdx) : Prop :=
  alloc.validDecode = true ∧ slot = rob.tailPtrQ

instance : Decidable (rob.allocates alloc slot) := by
  unfold allocates
  infer_instance

/-- Write-back in this cycle is accepted for the slot. -/
def writesBack (rob : Rob) (wb : RobWb) (slot : RobIdx) : Prop :=
  rob.acceptsWb wb = true ∧ slot = wb.robEntryCommit

instance : Decidable (rob.writesBack wb slot) := by
  unfold writesBack
  infer_instance

/-- A commit in this cycle frees the slot. -/
def retires (rob : Rob) (slot : RobIdx) : Prop :=
  rob.commitValid = true ∧ slot = rob.headPtrQ

instance : Decidable (rob.retires slot) := by
  unfold retires
  infer_instance

/-- A write-back is accepted only for an occupied slot. -/
theorem writesBack_valid
    (accepted : rob.writesBack wb slot) :
    (rob.robQ slot).valid = true := by
  obtain ⟨accepts, rfl⟩ := accepted
  simp only [acceptsWb, Bool.and_eq_true] at accepts
  exact accepts.2

/-- One slot after allocation and write-back. -/
theorem afterWb_apply :
    rob.afterWb alloc wb slot =
      if rob.writesBack wb slot then
        (if rob.allocates alloc slot then (rob.robQ slot).allocated alloc
          else rob.robQ slot).writtenBack wb
      else if rob.allocates alloc slot then (rob.robQ slot).allocated alloc
      else rob.robQ slot := by
  have allocated :
      rob.afterAlloc alloc slot =
        if rob.allocates alloc slot then (rob.robQ slot).allocated alloc
        else rob.robQ slot := by
    unfold afterAlloc allocates
    by_cases isTail : slot = rob.tailPtrQ
    · subst isTail
      by_cases valid : alloc.validDecode = true <;>
        simp [valid, RobEntry.allocated]
    · by_cases valid : alloc.validDecode = true <;>
        simp [valid, isTail]
  unfold afterWb writesBack
  by_cases isWb : slot = wb.robEntryCommit
  · subst isWb
    by_cases accepts : rob.acceptsWb wb = true <;>
      simp [accepts, allocated, RobEntry.writtenBack]
  · by_cases accepts : rob.acceptsWb wb = true <;>
      simp [accepts, isWb, allocated]

/-- One slot after allocation, write-back and commit. -/
theorem afterCommit_apply :
    rob.afterCommit alloc wb slot =
      if rob.retires slot then (rob.afterWb alloc wb slot).freed
      else rob.afterWb alloc wb slot := by
  unfold afterCommit retires
  by_cases isHead : slot = rob.headPtrQ
  · subst isHead
    by_cases commits : rob.commitValid = true <;>
      simp [commits, RobEntry.freed]
  · by_cases commits : rob.commitValid = true <;>
      simp [commits, isHead]

/-- One slot after the whole cycle. -/
theorem robD_apply :
    rob.robD alloc wb slot =
      if rob.flush = true ∨ rob.retires slot then
        (rob.afterWb alloc wb slot).freed
      else rob.afterWb alloc wb slot := by
  unfold robD
  by_cases flushes : rob.flush = true
  · by_cases retired : rob.retires slot <;>
      simp [flushes, afterCommit_apply, retired, RobEntry.freed]
  · simp [flushes, afterCommit_apply]

/-- Which slots are occupied after the edge. -/
theorem robD_valid :
    (rob.robD alloc wb slot).valid = true ↔
      rob.flush = false ∧ ¬ rob.retires slot ∧
        (rob.allocates alloc slot ∨ (rob.robQ slot).valid = true) := by
  rw [robD_apply, afterWb_apply]
  by_cases freed : rob.flush = true ∨ rob.retires slot
  · rw [if_pos freed]
    rcases freed with flushes | retired
    · simp [RobEntry.freed, flushes]
    · simp [RobEntry.freed, retired]
  · rw [if_neg freed]
    simp only [not_or, Bool.not_eq_true] at freed
    split <;> split <;>
      simp [RobEntry.writtenBack, RobEntry.allocated, *]

/-- Which slots are completed after the edge. -/
theorem robD_completed :
    (rob.robD alloc wb slot).completed =
      if rob.writesBack wb slot then true
      else if rob.allocates alloc slot then false
      else (rob.robQ slot).completed := by
  rw [robD_apply, afterWb_apply]
  split <;> split <;> split <;> rfl

/-- The allocated part of every slot after the edge. -/
theorem robD_own :
    (rob.robD alloc wb slot).own =
      if rob.allocates alloc slot then alloc.own
      else (rob.robQ slot).own := by
  rw [robD_apply, afterWb_apply]
  split <;> split <;> split <;> rfl

/-- The written-back part of every slot after the edge. -/
theorem robD_payload :
    (rob.robD alloc wb slot).payload =
      if rob.writesBack wb slot then wb.payload
      else (rob.robQ slot).payload := by
  rw [robD_apply, afterWb_apply]
  split <;> split <;> split <;> rfl

/-- A commit takes an occupied and completed head. -/
theorem commitValid_iff :
    rob.commitValid = true ↔
      (rob.robQ rob.headPtrQ).valid = true ∧
        (rob.robQ rob.headPtrQ).completed = true := by
  rw [commitValid, Bool.and_eq_true]

/-- The commit outputs report a taken branch exactly when they flush. -/
theorem commit_branchTaken : rob.commit.branchTaken = rob.flush := by
  unfold commit flush
  by_cases commits : rob.commitValid = true <;> simp [commits]

/-- A flush happens in a cycle with a commit. -/
theorem commitValid_of_flush (flushes : rob.flush = true) :
    rob.commitValid = true := by
  simp only [flush, Bool.and_eq_true] at flushes
  exact flushes.1

/-- The number of occupied slots. -/
def occupancy (rob : Rob) : Nat :=
  Ring.dist rob.headPtrQ rob.tailPtrQ

/-- The occupied slots form the window from the head to the tail. -/
def WellFormed (rob : Rob) : Prop :=
  ∀ slot,
    (rob.robQ slot).valid = true ↔
      Ring.dist rob.headPtrQ slot < rob.occupancy

/-- The datapath never allocates into a full or flushing buffer. -/
def Admits (rob : Rob) (alloc : RobAlloc) : Prop :=
  alloc.validDecode = true →
    rob.robFull = false ∧ rob.commit.branchTaken = false

instance (alloc : RobAlloc) : Decidable (rob.Admits alloc) :=
  inferInstanceAs (Decidable (_ → _))

/-- Reset empties the buffer. -/
theorem wellFormed_reset (rob : Rob) : rob.reset.WellFormed := by
  intro slot
  simp [reset, occupancy, RobEntry.zero]

namespace WellFormed

variable (wellFormed : rob.WellFormed)
include wellFormed

/-- The tail slot is free. -/
theorem tail_free : (rob.robQ rob.tailPtrQ).valid = false := by
  rw [Bool.eq_false_iff, ne_eq, wellFormed]
  exact Nat.lt_irrefl _

/-- A commit needs an occupied head. -/
theorem occupancy_pos (commits : rob.commitValid = true) :
    0 < rob.occupancy := by
  have inside :=
    (wellFormed rob.headPtrQ).mp (commitValid_iff.mp commits).1
  simpa using inside

/-- A buffer that is not full has room for one more entry. -/
theorem occupancy_lt (notFull : rob.robFull = false) :
    rob.occupancy < 15 := by
  by_contra full
  have bound := Ring.dist_lt rob.headPtrQ rob.tailPtrQ
  have occupied : rob.occupancy = 15 := by
    unfold occupancy at full ⊢
    omega
  have wraps : rob.tailPtrQ + 1 = rob.headPtrQ := by
    have next := Ring.dist_succ_slot rob.headPtrQ rob.tailPtrQ
    rw [show Ring.dist rob.headPtrQ rob.tailPtrQ = 15 from occupied]
      at next
    exact Ring.dist_eq_zero.mp (by simpa using next)
  have headValid : (rob.robQ rob.headPtrQ).valid = true := by
    rw [wellFormed, occupied]
    simp
  simp [robFull, wraps, headValid] at notFull

/-- The number of occupied slots after the edge. -/
theorem occupancy_clock (admitted : rob.Admits alloc) (wb : RobWb) :
    (rob.clock alloc wb).occupancy =
      if rob.flush = true then 0
      else rob.occupancy + (if alloc.validDecode = true then 1 else 0) -
        (if rob.commitValid = true then 1 else 0) := by
  unfold occupancy clock headPtrD tailPtrD
  by_cases flushes : rob.flush = true
  · simp [flushes]
  · simp only [flushes, if_false, Bool.false_eq_true]
    have tailMoves :
        alloc.validDecode = true →
          Ring.dist rob.headPtrQ (rob.tailPtrQ + 1) = rob.occupancy + 1 := by
      intro allocated
      have room := wellFormed.occupancy_lt (admitted allocated).1
      rw [Ring.dist_succ_slot]
      unfold occupancy at room ⊢
      split <;> omega
    have headMoves :
        ∀ slot, slot ≠ rob.headPtrQ →
          Ring.dist (rob.headPtrQ + 1) slot =
            Ring.dist rob.headPtrQ slot - 1 := by
      intro slot other
      have closer := Ring.dist_succ_start other
      omega
    by_cases commits : rob.commitValid = true
    · have positive := wellFormed.occupancy_pos commits
      simp only [commits, if_true]
      by_cases allocated : alloc.validDecode = true
      · have moved := tailMoves allocated
        simp only [allocated, if_true]
        rw [headMoves, moved]
        · unfold occupancy
          omega
        · intro same
          rw [same, Ring.dist_self] at moved
          omega
      · simp only [allocated, if_false, Bool.false_eq_true]
        rw [headMoves]
        · rfl
        · intro same
          unfold occupancy at positive
          rw [same, Ring.dist_self] at positive
          omega
    · simp only [commits, if_false, Bool.false_eq_true]
      by_cases allocated : alloc.validDecode = true
      · simp only [allocated, if_true]
        exact tailMoves allocated
      · simp [allocated]

omit wellFormed in
/-- Allocation takes the slot right behind the occupied ones. -/
theorem allocates_iff :
    rob.allocates alloc slot ↔
      alloc.validDecode = true ∧
        Ring.dist rob.headPtrQ slot = rob.occupancy := by
  unfold allocates
  constructor
  · rintro ⟨valid, rfl⟩
    exact ⟨valid, rfl⟩
  · rintro ⟨valid, sameDist⟩
    exact ⟨valid, Ring.dist_injective sameDist⟩

/-- A clock edge keeps the occupied slots a window. -/
theorem preserved (admitted : rob.Admits alloc) (wb : RobWb) :
    (rob.clock alloc wb).WellFormed := by
  intro slot
  rw [wellFormed.occupancy_clock admitted wb]
  change (rob.robD alloc wb slot).valid = true ↔
    Ring.dist rob.headPtrD slot < _
  rw [robD_valid, allocates_iff, wellFormed slot]
  by_cases flushes : rob.flush = true
  · simp [flushes]
  · have bound := Ring.dist_lt rob.headPtrQ rob.tailPtrQ
    change rob.occupancy < 16 at bound
    have room : alloc.validDecode = true → rob.occupancy < 15 :=
      fun allocated => wellFormed.occupancy_lt (admitted allocated).1
    simp only [flushes, if_false, Bool.false_eq_true, true_and,
      headPtrD, retires]
    by_cases commits : rob.commitValid = true
    · have positive := wellFormed.occupancy_pos commits
      simp only [commits, if_true, true_and]
      by_cases isHead : slot = rob.headPtrQ
      · subst isHead
        have far := Ring.dist_succ_start_self rob.headPtrQ
        simp only [not_true_eq_false, false_and, false_iff]
        split <;> omega
      · have closer := Ring.dist_succ_start isHead
        simp only [isHead, not_false_eq_true, true_and]
        split <;> rename_i allocated
        · have := room allocated
          simp only [allocated, true_and]
          omega
        · simp only [allocated, Bool.false_eq_true, false_and, false_or]
          omega
    · simp only [commits, false_and, not_false_eq_true, true_and,
        if_false, Bool.false_eq_true]
      split <;> rename_i allocated
      · simp only [allocated, true_and]
        omega
      · simp only [allocated, Bool.false_eq_true, false_and, false_or]
        omega

omit wellFormed in
/-- Distances from the head that a clock edge without a flush leaves. -/
theorem dist_headPtrD
    (noFlush : rob.flush = false)
    (stays : ¬ rob.retires slot) :
    Ring.dist rob.headPtrD slot +
        (if rob.commitValid = true then 1 else 0) =
      Ring.dist rob.headPtrQ slot := by
  unfold headPtrD
  rw [noFlush, if_neg Bool.false_ne_true]
  by_cases commits : rob.commitValid = true
  · have notHead : slot ≠ rob.headPtrQ := fun isHead => stays ⟨commits, isHead⟩
    rw [if_pos commits, if_pos commits]
    exact Ring.dist_succ_start notHead
  · rw [if_neg commits, if_neg commits]
    rfl

/-- The newest entry is the last one of the window. -/
theorem dist_allocated
    (admitted : rob.Admits alloc)
    (allocated : rob.allocates alloc slot)
    (wb : RobWb) :
    Ring.dist rob.headPtrD slot + 1 = (rob.clock alloc wb).occupancy := by
  have noFlush := (admitted allocated.1).2
  rw [commit_branchTaken] at noFlush
  have notRetired : ¬ rob.retires slot := by
    rintro ⟨commits, rfl⟩
    have valid := (commitValid_iff.mp commits).1
    rw [allocated.2, wellFormed.tail_free] at valid
    cases valid
  have shift := dist_headPtrD noFlush notRetired
  rw [wellFormed.occupancy_clock admitted wb, noFlush,
    if_neg Bool.false_ne_true, if_pos allocated.1]
  rw [(allocates_iff.mp allocated).2] at shift
  split at shift
  · rename_i commits
    rw [if_pos commits]
    omega
  · rename_i noCommit
    rw [if_neg noCommit]
    omega

end WellFormed

end Rob

end Tartaruga
