import Tartaruga.Ring
import Tartaruga.StoreBufferSource

namespace Tartaruga

/-!
# The occupied window of the store buffer

What a clock edge does to one slot, and the ring invariant.  Head and tail
coincide both when the buffer is empty and when it is full; the valid bit of
the head tells the two apart.
-/

namespace StoreBuffer

variable {buffer : StoreBuffer} {input : StoreBufferInput}
  {slot : StoreBufferIdx}

/-- The oldest slot is freed in this cycle. -/
def dequeues (buffer : StoreBuffer) (input : StoreBufferInput) : Bool :=
  buffer.handsOver input || buffer.drops

/-- An insertion in this cycle takes the slot. -/
def fills
    (buffer : StoreBuffer)
    (input : StoreBufferInput)
    (slot : StoreBufferIdx) :
    Prop :=
  buffer.inserts input = true ∧ slot = buffer.tailPtrQ

instance : Decidable (buffer.fills input slot) := by
  unfold fills
  infer_instance

/-- The slot is freed in this cycle. -/
def frees
    (buffer : StoreBuffer)
    (input : StoreBufferInput)
    (slot : StoreBufferIdx) :
    Prop :=
  buffer.dequeues input = true ∧ slot = buffer.headPtrQ

instance : Decidable (buffer.frees input slot) := by
  unfold frees
  infer_instance

/-- One slot after the insertion and the dequeue. -/
theorem afterDequeue_apply :
    buffer.afterDequeue input slot =
      let inserted : StoreBufferEntry :=
        if buffer.fills input slot then
          { data := input.data
            addr := input.addr
            valid := true
            committed := false
            discarded := false }
        else
          buffer.storeBufferQ slot
      if buffer.frees input slot then { inserted with valid := false }
      else inserted := by
  have inserted :
      buffer.afterInsert input slot =
        if buffer.fills input slot then
          { data := input.data
            addr := input.addr
            valid := true
            committed := false
            discarded := false }
        else
          buffer.storeBufferQ slot := by
    unfold afterInsert fills
    by_cases inserts : buffer.inserts input = true <;>
      by_cases isTail : slot = buffer.tailPtrQ <;>
      simp [inserts, isTail]
  rw [← inserted]
  unfold afterDequeue frees dequeues
  by_cases leaves : (buffer.handsOver input || buffer.drops) = true
  · rw [if_pos leaves]
    by_cases isHead : slot = buffer.headPtrQ
    · subst isHead
      rw [Function.update_self]
      simp only [leaves, true_and, if_true]
    · rw [Function.update_of_ne isHead]
      simp [isHead]
  · rw [if_neg leaves]
    simp only [leaves, Bool.false_eq_true, false_and, if_false]

/-- One slot after the whole cycle. -/
theorem storeBufferD_apply :
    buffer.storeBufferD input slot =
      { buffer.afterDequeue input slot with
        committed :=
          (input.commit && decide (slot = input.idxCommit)) ||
            (buffer.afterDequeue input slot).committed
        discarded :=
          input.discard slot ||
            (buffer.afterDequeue input slot).discarded } := by
  have committed :
      buffer.afterCommit input slot =
        { buffer.afterDequeue input slot with
          committed :=
            (input.commit && decide (slot = input.idxCommit)) ||
              (buffer.afterDequeue input slot).committed } := by
    unfold afterCommit
    by_cases commits : input.commit = true
    · by_cases isIdx : slot = input.idxCommit
      · subst isIdx
        simp [commits]
      · simp [commits, isIdx]
    · simp [commits]
  unfold storeBufferD
  rw [committed]
  by_cases discards : input.discard slot = true <;> simp [discards]

/-- Which slots are occupied after the edge. -/
theorem storeBufferD_valid :
    (buffer.storeBufferD input slot).valid = true ↔
      ¬ buffer.frees input slot ∧
        (buffer.fills input slot ∨
          (buffer.storeBufferQ slot).valid = true) := by
  rw [storeBufferD_apply, afterDequeue_apply]
  by_cases freed : buffer.frees input slot <;>
    by_cases filled : buffer.fills input slot <;>
    simp [freed, filled]

/-- The address a slot holds after the edge. -/
theorem storeBufferD_addr :
    (buffer.storeBufferD input slot).addr =
      if buffer.fills input slot then input.addr
      else (buffer.storeBufferQ slot).addr := by
  rw [storeBufferD_apply, afterDequeue_apply]
  by_cases freed : buffer.frees input slot <;>
    by_cases filled : buffer.fills input slot <;>
    simp [freed, filled]

/-- The data a slot holds after the edge. -/
theorem storeBufferD_data :
    (buffer.storeBufferD input slot).data =
      if buffer.fills input slot then input.data
      else (buffer.storeBufferQ slot).data := by
  rw [storeBufferD_apply, afterDequeue_apply]
  by_cases freed : buffer.frees input slot <;>
    by_cases filled : buffer.fills input slot <;>
    simp [freed, filled]

/-- Which slots are marked committed after the edge. -/
theorem storeBufferD_committed :
    (buffer.storeBufferD input slot).committed =
      ((input.commit && decide (slot = input.idxCommit)) ||
        (!decide (buffer.fills input slot) &&
          (buffer.storeBufferQ slot).committed)) := by
  rw [storeBufferD_apply, afterDequeue_apply]
  by_cases freed : buffer.frees input slot <;>
    by_cases filled : buffer.fills input slot <;>
    simp [freed, filled]

/-- Which slots are marked discarded after the edge. -/
theorem storeBufferD_discarded :
    (buffer.storeBufferD input slot).discarded =
      (input.discard slot ||
        (!decide (buffer.fills input slot) &&
          (buffer.storeBufferQ slot).discarded)) := by
  rw [storeBufferD_apply, afterDequeue_apply]
  by_cases freed : buffer.frees input slot <;>
    by_cases filled : buffer.fills input slot <;>
    simp [freed, filled]

/-- The number of occupied slots. -/
def occupancy (buffer : StoreBuffer) : Nat :=
  if buffer.reqReady then Ring.dist buffer.headPtrQ buffer.tailPtrQ else 4

/-- The occupied slots form the window that starts at the head. -/
def WellFormed (buffer : StoreBuffer) : Prop :=
  ∀ slot,
    (buffer.storeBufferQ slot).valid = true ↔
      Ring.dist buffer.headPtrQ slot < buffer.occupancy

/-- Reset empties the buffer. -/
theorem wellFormed_reset : reset.WellFormed := by
  intro slot
  simp [reset, occupancy, reqReady, headEntry]

/-- A buffer without room has its head and tail together. -/
theorem full_iff :
    buffer.reqReady = false ↔
      buffer.tailPtrQ = buffer.headPtrQ ∧
        (buffer.storeBufferQ buffer.headPtrQ).valid = true := by
  simp [reqReady, headEntry]

/-- There are four slots. -/
theorem occupancy_le (buffer : StoreBuffer) : buffer.occupancy ≤ 4 := by
  have bound := Ring.dist_lt buffer.headPtrQ buffer.tailPtrQ
  unfold occupancy
  split <;> omega

/-- The tail is as far from the head as slots are occupied, up to a whole
turn. -/
theorem dist_tail (buffer : StoreBuffer) :
    Ring.dist buffer.headPtrQ buffer.tailPtrQ = buffer.occupancy % 4 := by
  have bound := Ring.dist_lt buffer.headPtrQ buffer.tailPtrQ
  unfold occupancy
  split
  · exact (Nat.mod_eq_of_lt bound).symm
  · rename_i full
    rw [(full_iff.mp (by simpa using full)).1]
    simp

/-- A buffer whose occupied slots are a window that reaches to the tail has as
many occupied slots as that window is long. -/
theorem occupancy_of_window
    {length : Nat}
    (fits : length ≤ 4)
    (window :
      ∀ slot,
        (buffer.storeBufferQ slot).valid = true ↔
          Ring.dist buffer.headPtrQ slot < length)
    (reaches :
      Ring.dist buffer.headPtrQ buffer.tailPtrQ = length % 4) :
    buffer.occupancy = length := by
  have atHead := window buffer.headPtrQ
  rw [Ring.dist_self] at atHead
  cases ready : buffer.reqReady with
  | true =>
      have notFull :
          ¬ (buffer.tailPtrQ = buffer.headPtrQ ∧
            (buffer.storeBufferQ buffer.headPtrQ).valid = true) := by
        rw [← full_iff, ready]
        exact Bool.true_eq_false_eq_False
      have short : length < 4 := by
        by_contra full
        have whole : length = 4 := by omega
        subst whole
        exact notFull
          ⟨Ring.dist_eq_zero.mp reaches, atHead.mpr (by omega)⟩
      rw [occupancy, ready, if_pos rfl, reaches, Nat.mod_eq_of_lt short]
  | false =>
      obtain ⟨together, valid⟩ := full_iff.mp ready
      have positive := atHead.mp valid
      rw [together, Ring.dist_self] at reaches
      rw [occupancy, ready, if_neg Bool.false_ne_true]
      omega

namespace WellFormed

variable (wellFormed : buffer.WellFormed)
include wellFormed

/-- The head is occupied exactly when anything is. -/
theorem headEntry_valid :
    buffer.headEntry.valid = true ↔ 0 < buffer.occupancy := by
  have atHead := wellFormed buffer.headPtrQ
  rwa [Ring.dist_self] at atHead

omit wellFormed in
/-- An insertion takes the slot right behind the occupied ones. -/
theorem fills_iff :
    buffer.fills input slot ↔
      buffer.inserts input = true ∧
        Ring.dist buffer.headPtrQ slot = buffer.occupancy := by
  unfold fills
  constructor
  · rintro ⟨inserts, rfl⟩
    refine ⟨inserts, ?_⟩
    simp only [StoreBuffer.inserts, Bool.and_eq_true] at inserts
    simp [occupancy, inserts.2]
  · rintro ⟨inserts, sameDist⟩
    refine ⟨inserts, ?_⟩
    simp only [StoreBuffer.inserts, Bool.and_eq_true] at inserts
    simp only [occupancy, inserts.2, if_true] at sameDist
    exact Ring.dist_injective sameDist

/-- An insertion takes a free slot. -/
theorem fills_free (filled : buffer.fills input slot) :
    (buffer.storeBufferQ slot).valid = false := by
  rw [Bool.eq_false_iff, ne_eq, wellFormed]
  have atEnd := (fills_iff.mp filled).2
  omega

omit wellFormed in
/-- An insertion needs room. -/
theorem occupancy_lt (inserts : buffer.inserts input = true) :
    buffer.occupancy < 4 := by
  have bound := Ring.dist_lt buffer.headPtrQ buffer.tailPtrQ
  simp only [StoreBuffer.inserts, Bool.and_eq_true] at inserts
  simpa [occupancy, inserts.2] using bound

/-- A dequeue needs an occupied head. -/
theorem occupancy_pos (dequeues : buffer.dequeues input = true) :
    0 < buffer.occupancy := by
  rw [← wellFormed.headEntry_valid]
  simp only [StoreBuffer.dequeues, handsOver, drops, rspValid,
    Bool.or_eq_true, Bool.and_eq_true] at dequeues
  rcases dequeues with handed | dropped
  · exact handed.1.1
  · exact dropped.2.1

omit wellFormed in
/-- Distances from the head that a clock edge leaves. -/
theorem dist_headPtrD
    (stays : ¬ buffer.frees input slot) :
    Ring.dist (buffer.headPtrD input) slot +
        (if buffer.dequeues input = true then 1 else 0) =
      Ring.dist buffer.headPtrQ slot := by
  unfold headPtrD
  change Ring.dist (if buffer.dequeues input = true then _ else _) _ + _ = _
  by_cases dequeues : buffer.dequeues input = true
  · have notHead : slot ≠ buffer.headPtrQ :=
      fun isHead => stays ⟨dequeues, isHead⟩
    rw [if_pos dequeues, if_pos dequeues]
    exact Ring.dist_succ_start notHead
  · rw [if_neg dequeues, if_neg dequeues]
    rfl

/-- A clock edge moves the window: its slots. -/
theorem window_slots (input : StoreBufferInput) (slot : StoreBufferIdx) :
    (buffer.storeBufferD input slot).valid = true ↔
      Ring.dist (buffer.headPtrD input) slot <
        buffer.occupancy +
            (if buffer.inserts input = true then 1 else 0) -
          (if buffer.dequeues input = true then 1 else 0) := by
  have bound := buffer.occupancy_le
  have positive :
      buffer.dequeues input = true → 0 < buffer.occupancy :=
    wellFormed.occupancy_pos
  have room : buffer.inserts input = true → buffer.occupancy < 4 :=
    occupancy_lt
  rw [storeBufferD_valid, fills_iff, wellFormed slot]
  by_cases freed : buffer.frees input slot
  · obtain ⟨dequeues, rfl⟩ := freed
    have far := Ring.dist_succ_start_self buffer.headPtrQ
    have moved : buffer.headPtrD input = buffer.headPtrQ + 1 := by
      unfold headPtrD
      exact if_pos dequeues
    have freed : buffer.frees input buffer.headPtrQ := ⟨dequeues, rfl⟩
    simp only [freed, not_true_eq_false, false_and, false_iff, moved,
      dequeues, if_true]
    by_cases inserts : buffer.inserts input = true
    · have := room inserts
      simp only [inserts, if_true]
      omega
    · simp only [inserts, if_false, Bool.false_eq_true]
      omega
  · have shift := dist_headPtrD freed
    simp only [freed, not_false_eq_true, true_and]
    by_cases inserts : buffer.inserts input = true <;>
      by_cases dequeues : buffer.dequeues input = true <;>
      simp only [inserts, dequeues, if_true, if_false,
        Bool.false_eq_true, true_and, false_and, false_or] at shift ⊢ <;>
      omega

omit wellFormed in
/-- How far the tail moves away from the old head. -/
theorem dist_tailPtrD (input : StoreBufferInput) :
    Ring.dist buffer.headPtrQ (buffer.tailPtrD input) =
      (buffer.occupancy +
        (if buffer.inserts input = true then 1 else 0)) % 4 := by
  have reaches := buffer.dist_tail
  unfold tailPtrD
  split
  · rw [Ring.dist_succ_slot, reaches]
    split <;> omega
  · exact reaches

/-- A clock edge moves the window: its end. -/
theorem window_end (input : StoreBufferInput) :
    Ring.dist (buffer.headPtrD input) (buffer.tailPtrD input) =
      (buffer.occupancy +
          (if buffer.inserts input = true then 1 else 0) -
        (if buffer.dequeues input = true then 1 else 0)) % 4 := by
  unfold headPtrD
  change Ring.dist (if buffer.dequeues input = true then _ else _) _ = _
  by_cases dequeues : buffer.dequeues input = true
  · have := wellFormed.occupancy_pos dequeues
    rw [if_pos dequeues, Ring.dist_succ_start_mod, dist_tailPtrD,
      if_pos dequeues]
    omega
  · rw [if_neg dequeues, dist_tailPtrD, if_neg dequeues]
    rfl

end WellFormed

/-- A clock edge keeps the occupied slots a window. -/
theorem WellFormed.preserved
    (wellFormed : buffer.WellFormed)
    (input : StoreBufferInput) :
    (buffer.clock input).WellFormed ∧
      (buffer.clock input).occupancy =
        buffer.occupancy +
            (if buffer.inserts input = true then 1 else 0) -
          (if buffer.dequeues input = true then 1 else 0) := by
  have window := wellFormed.window_slots input
  have reaches := wellFormed.window_end input
  have bound := buffer.occupancy_le
  have room : buffer.inserts input = true → buffer.occupancy < 4 :=
    WellFormed.occupancy_lt
  have fits :
      buffer.occupancy +
            (if buffer.inserts input = true then 1 else 0) -
          (if buffer.dequeues input = true then 1 else 0) ≤ 4 := by
    split
    · rename_i inserts
      have := room inserts
      omega
    · omega
  have counted : (buffer.clock input).occupancy = _ :=
    occupancy_of_window fits window reaches
  refine ⟨?_, counted⟩
  intro slot
  rw [counted]
  exact window slot

end StoreBuffer

end Tartaruga
