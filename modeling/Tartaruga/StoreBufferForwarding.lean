import Tartaruga.StoreBufferBypass

namespace Tartaruga

/-!
# Completeness of store-to-load forwarding

The search for the store that a load depends on starts in front of the tail
and gives up at the tail.  While the buffer is full the tail is also the head,
so the oldest store is the one that the search does not look at.
-/

namespace StoreBuffer

variable {buffer : StoreBuffer} {addr : Bus32} {slot other : StoreBufferIdx}
  {stimulus : Nat → StoreBufferInput} {cycle : Nat}

/-- The edge that filled a slot last, counted from one. -/
def insertedAt
    (stimulus : Nat → StoreBufferInput) :
    Nat → StoreBufferIdx → Nat
  | 0, _ => 0
  | cycle + 1, slot =>
      if (Clocked.run clock reset stimulus cycle).fills (stimulus cycle) slot
      then cycle + 1
      else insertedAt stimulus cycle slot

/-- Nothing was inserted after the edge that led here. -/
theorem insertedAt_le (stimulus : Nat → StoreBufferInput) (cycle : Nat) :
    insertedAt stimulus cycle slot ≤ cycle := by
  induction cycle with
  | zero =>
      exact Nat.le_refl _
  | succ cycle inductionHypothesis =>
      simp only [insertedAt]
      split
      · exact Nat.le_refl _
      · exact Nat.le_succ_of_le inductionHypothesis

/-- Occupied slots further from the head were filled later. -/
theorem insertedAt_increasing
    (stimulus : Nat → StoreBufferInput)
    (cycle : Nat) :
    Ring.Increasing (Clocked.run clock reset stimulus cycle).headPtrQ
      (fun slot =>
        ((Clocked.run clock reset stimulus cycle).storeBufferQ slot).valid =
          true)
      (insertedAt stimulus cycle) := by
  induction cycle with
  | zero =>
      intro slot other valid
      cases valid
  | succ cycle inductionHypothesis =>
      have wellFormed := run_wellFormed stimulus cycle
      apply inductionHypothesis.step fun _ => insertedAt_le stimulus cycle
      · intro slot valid
        exact WellFormed.dist_headPtrD (storeBufferD_valid.mp valid).1
      · intro slot valid
        exact (storeBufferD_valid.mp valid).2
      · intro slot other filled source
        rw [(WellFormed.fills_iff.mp filled).2]
        rcases source with filledOther | valid
        · exact (WellFormed.fills_iff.mp filledOther).2.le
        · exact ((wellFormed other).mp valid).le

/-- A store to the address is occupied. -/
theorem valid_of_matchesAt (isMatch : buffer.matchesAt addr slot = true) :
    (buffer.storeBufferQ slot).valid = true := by
  simp only [matchesAt, Bool.and_eq_true] at isMatch
  exact isMatch.1

/-- A tail that is occupied is the head of a full buffer. -/
theorem WellFormed.full_of_tail
    (wellFormed : buffer.WellFormed)
    (valid : (buffer.storeBufferQ buffer.tailPtrQ).valid = true) :
    buffer.reqReady = false ∧ buffer.tailPtrQ = buffer.headPtrQ := by
  have full : buffer.reqReady = false := by
    by_contra room
    have inside := (wellFormed buffer.tailPtrQ).mp valid
    rw [occupancy, if_pos (by simpa using room)] at inside
    exact Nat.lt_irrefl _ inside
  exact ⟨full, (full_iff.mp full).1⟩

/-- In front of the tail, later slots are further from the tail as well. -/
theorem WellFormed.dist_tail_of_closer
    (wellFormed : buffer.WellFormed)
    (valid : (buffer.storeBufferQ slot).valid = true)
    (validOther : (buffer.storeBufferQ other).valid = true)
    (closer :
      Ring.dist buffer.tailPtrQ slot < Ring.dist buffer.tailPtrQ other) :
    Ring.dist buffer.headPtrQ slot < Ring.dist buffer.headPtrQ other := by
  have inside := (wellFormed slot).mp valid
  have insideOther := (wellFormed other).mp validOther
  cases ready : buffer.reqReady with
  | false =>
      rwa [(full_iff.mp ready).1] at closer
  | true =>
      rw [occupancy, if_pos ready] at inside insideOther
      exact (Ring.dist_from_end_lt_iff inside insideOther).mp closer

/--
A load of the address takes its data from the buffer exactly when there is a
store to that address, and then from the one inserted last.
-/
structure ForwardsLatest
    (stimulus : Nat → StoreBufferInput)
    (cycle : Nat)
    (addr : Bus32) :
    Prop where
  forwards :
    (Clocked.run clock reset stimulus cycle).bypass addr = true ↔
      ∃ slot,
        (Clocked.run clock reset stimulus cycle).matchesAt addr slot = true
  latest :
    ∀ slot,
      (Clocked.run clock reset stimulus cycle).matchesAt addr slot = true →
      (∀ other,
        (Clocked.run clock reset stimulus cycle).matchesAt addr other =
            true →
        insertedAt stimulus cycle other ≤ insertedAt stimulus cycle slot) →
      (Clocked.run clock reset stimulus cycle).dataRd addr =
        ((Clocked.run clock reset stimulus cycle).storeBufferQ slot).data

/-- If the buffer is full and its oldest store is to the address, a younger
one is to that address, too. -/
def OldestShadowed (buffer : StoreBuffer) (addr : Bus32) : Prop :=
  buffer.reqReady = false →
  buffer.headEntry.addr = addr →
  ∃ slot, slot ≠ buffer.headPtrQ ∧ buffer.matchesAt addr slot = true

/-- In a buffer whose oldest store is shadowed, the search finds something
whenever there is something to find. -/
theorem exists_bypassSlot
    (wellFormed : buffer.WellFormed)
    (shadowed : buffer.OldestShadowed addr)
    (isMatch : buffer.matchesAt addr slot = true) :
    ∃ found, buffer.bypassSlot addr = some found := by
  have search :
      ∀ {slot},
        slot ≠ buffer.tailPtrQ →
        buffer.matchesAt addr slot = true →
        ∃ found, buffer.bypassSlot addr = some found := by
    intro slot notTail isMatch
    obtain ⟨found, isFound, _⟩ := Ring.exists_searchBack notTail isMatch
    refine ⟨found, ?_⟩
    rw [bypassSlot, searchLoop_eq]
    exact isFound
  by_cases isTail : slot = buffer.tailPtrQ
  · rw [isTail] at isMatch
    obtain ⟨full, together⟩ :=
      wellFormed.full_of_tail (valid_of_matchesAt isMatch)
    simp only [matchesAt, Bool.and_eq_true, beq_iff_eq, together] at isMatch
    obtain ⟨younger, notHead, isYounger⟩ := shadowed full isMatch.2
    rw [← together] at notHead
    exact search notHead isYounger
  · exact search isTail isMatch

/--
In every state of every run of the buffer and for every address, forwarding is
complete if and only if the buffer is not full with the only store to that
address in its oldest slot.
-/
theorem forwardsLatest_iff
    (stimulus : Nat → StoreBufferInput)
    (cycle : Nat)
    (addr : Bus32) :
    ForwardsLatest stimulus cycle addr ↔
      (Clocked.run clock reset stimulus cycle).OldestShadowed addr := by
  have wellFormed := run_wellFormed stimulus cycle
  constructor
  · intro complete full sameAddr
    obtain ⟨together, valid⟩ := full_iff.mp full
    have headMatches :
        (Clocked.run clock reset stimulus cycle).matchesAt addr
          (Clocked.run clock reset stimulus cycle).headPtrQ = true := by
      simp only [matchesAt, Bool.and_eq_true, beq_iff_eq]
      exact ⟨valid, sameAddr⟩
    have forwards := complete.forwards.mpr ⟨_, headMatches⟩
    obtain ⟨found, isFound⟩ := Option.isSome_iff_exists.mp forwards
    obtain ⟨notTail, isMatch, _⟩ := bypassSlot_eq_some.mp isFound
    rw [together] at notTail
    exact ⟨found, notTail, isMatch⟩
  · intro shadowed
    constructor
    · constructor
      · intro forwards
        obtain ⟨found, isFound⟩ := Option.isSome_iff_exists.mp forwards
        exact ⟨found, (bypassSlot_eq_some.mp isFound).2.1⟩
      · rintro ⟨slot, isMatch⟩
        exact Option.isSome_iff_exists.mpr
          (exists_bypassSlot wellFormed shadowed isMatch)
    · intro slot isMatch isLatest
      obtain ⟨found, isFound⟩ :=
        exists_bypassSlot wellFormed shadowed isMatch
      obtain ⟨notTail, foundMatches, youngest⟩ :=
        bypassSlot_eq_some.mp isFound
      have valid := valid_of_matchesAt isMatch
      have foundValid := valid_of_matchesAt foundMatches
      suffices same : slot = found by
        rw [dataRd, isFound, same]
      by_contra different
      -- the search passed nothing, and nothing was inserted later
      have behind :
          Ring.dist (Clocked.run clock reset stimulus cycle).headPtrQ slot <
            Ring.dist (Clocked.run clock reset stimulus cycle).headPtrQ
              found := by
        by_cases isTail :
            slot = (Clocked.run clock reset stimulus cycle).tailPtrQ
        · rw [isTail] at valid
          have together := (wellFormed.full_of_tail valid).2
          rw [isTail, together, Ring.dist_self]
          rw [together] at notTail
          exact Nat.pos_of_ne_zero fun zero =>
            notTail (Ring.dist_eq_zero.mp zero)
        · apply wellFormed.dist_tail_of_closer valid foundValid
          by_contra notCloser
          have apart :
              Ring.dist
                  (Clocked.run clock reset stimulus cycle).tailPtrQ slot ≠
                Ring.dist
                  (Clocked.run clock reset stimulus cycle).tailPtrQ found :=
            fun same => different (Ring.dist_injective same)
          have missed := youngest slot (by unfold youngerThan; omega)
          rw [isMatch] at missed
          cases missed
      have later :=
        insertedAt_increasing stimulus cycle _ _ valid foundValid behind
      exact Nat.not_le_of_lt later (isLatest found foundMatches)

/-- Four stores to different addresses fill the buffer. -/
def fourStores : Nat → StoreBufferInput
  | 0 => { idleInput with reqValid := true, addr := 4, data := 1 }
  | 1 => { idleInput with reqValid := true, addr := 8, data := 2 }
  | 2 => { idleInput with reqValid := true, addr := 12, data := 3 }
  | 3 => { idleInput with reqValid := true, addr := 16, data := 4 }
  | _ => idleInput

/-- With the buffer full of live stores, a load of the oldest address is not
forwarded. -/
theorem oldest_not_forwarded :
    (∀ slot,
        (Clocked.run clock reset fourStores 4).liveAt slot = true) ∧
      (Clocked.run clock reset fourStores 4).matchesAt 4 0 = true ∧
      (Clocked.run clock reset fourStores 4).bypass 4 = false ∧
      ¬ ForwardsLatest fourStores 4 4 := by
  refine ⟨by decide +kernel, by decide +kernel, by decide +kernel, ?_⟩
  intro complete
  have forwards := complete.forwards.mpr ⟨0, by decide +kernel⟩
  revert forwards
  decide +kernel

end StoreBuffer

end Tartaruga
