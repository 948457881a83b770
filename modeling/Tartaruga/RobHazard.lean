import Tartaruga.RobFifo

namespace Tartaruga

/-!
# The hazard search

Decode asks the reorder buffer for the pending writer of a source register.
The search runs backwards from the entry in front of the tail and keeps the
first entry that matches, so it returns the one allocated last.
-/

namespace Rob

variable {rob : Rob} {rsAddr : RegAddr} {slot other : RobIdx}
  {stimulus : Nat → RobInput} {cycle : Nat}

/-- What the search reports about an entry. -/
def hazardAt (rob : Rob) (slot : RobIdx) : RobHazard where
  hazard := true
  robEntry := slot
  completed := (rob.robQ slot).completed
  result := (rob.robQ slot).result

/-- A search that has found an entry keeps it. -/
theorem hazardLoop_of_found
    {found : RobHazard}
    (isFound : found.hazard = true)
    (rounds : Nat) :
    rob.hazardLoop rsAddr rounds slot found = found := by
  induction rounds generalizing slot with
  | zero =>
      rfl
  | succ rounds inductionHypothesis =>
      simp [hazardLoop, isFound, inductionHypothesis]

/-- The hazard search is a backward search of the ring. -/
theorem hazardLoop_eq (rounds : Nat) :
    rob.hazardLoop rsAddr rounds slot noHazard =
      match
        Ring.searchBack rob.tailPtrQ (rob.writes rsAddr) rounds slot with
      | some found => rob.hazardAt found
      | none => noHazard := by
  induction rounds generalizing slot with
  | zero =>
      rfl
  | succ rounds inductionHypothesis =>
      by_cases atStop : slot = rob.tailPtrQ
      · simp [hazardLoop, Ring.searchBack, atStop]
      · cases isWriter : rob.writes rsAddr slot with
        | true =>
            simp only [hazardLoop, Ring.searchBack, atStop, isWriter,
              if_false, if_true, noHazard, Bool.not_false, Bool.and_self]
            exact hazardLoop_of_found rfl rounds
        | false =>
            simp only [hazardLoop, Ring.searchBack, atStop, isWriter,
              if_false, Bool.false_and, Bool.false_eq_true]
            exact inductionHypothesis

/-- One port of the hazard search as a search of the ring. -/
theorem hazard_eq :
    rob.hazard rsAddr =
      match
        Ring.searchBack rob.tailPtrQ (rob.writes rsAddr) 16
          (rob.tailPtrQ - 1) with
      | some found => rob.hazardAt found
      | none => noHazard :=
  hazardLoop_eq 16

/-- The entry is in use and will write the register. -/
structure WillWrite (rob : Rob) (rsAddr : RegAddr) (slot : RobIdx) : Prop where
  valid : (rob.robQ slot).valid = true
  enabled : (rob.robQ slot).writeEnable = true
  sameAddr : (rob.robQ slot).addrRd = rsAddr

/-- The search looks for pending writers of registers other than zero. -/
theorem writes_iff :
    rob.writes rsAddr slot = true ↔
      rsAddr ≠ 0 ∧ rob.WillWrite rsAddr slot := by
  simp only [writes, Bool.and_eq_true, Bool.not_eq_true', beq_iff_eq,
    beq_eq_false_iff_ne]
  constructor
  · rintro ⟨⟨⟨valid, rfl⟩, enabled⟩, notZero⟩
    exact ⟨notZero, valid, enabled, rfl⟩
  · rintro ⟨notZero, valid, enabled, rfl⟩
    exact ⟨⟨⟨valid, rfl⟩, enabled⟩, notZero⟩

/-- The edge that allocated a slot last, counted from one. -/
def allocatedAt
    (initial : Rob)
    (stimulus : Nat → RobInput) :
    Nat → RobIdx → Nat
  | 0, _ => 0
  | cycle + 1, slot =>
      if (Clocked.run step initial stimulus cycle).allocates
          (stimulus cycle).alloc slot
      then cycle + 1
      else allocatedAt initial stimulus cycle slot

/-- Nothing was allocated after the edge that led here. -/
theorem allocatedAt_le
    (initial : Rob)
    (stimulus : Nat → RobInput)
    (cycle : Nat) :
    allocatedAt initial stimulus cycle slot ≤ cycle := by
  induction cycle with
  | zero =>
      exact Nat.le_refl _
  | succ cycle inductionHypothesis =>
      simp only [allocatedAt]
      split
      · exact Nat.le_refl _
      · exact Nat.le_succ_of_le inductionHypothesis

/-- Occupied slots further from the head were allocated later. -/
theorem allocatedAt_increasing
    (admitted :
      ∀ cycle,
        (Clocked.run step rob.reset stimulus cycle).Admits
          (stimulus cycle).alloc)
    (cycle : Nat) :
    Ring.Increasing (Clocked.run step rob.reset stimulus cycle).headPtrQ
      (fun slot =>
        ((Clocked.run step rob.reset stimulus cycle).robQ slot).valid = true)
      (allocatedAt rob.reset stimulus cycle) := by
  induction cycle with
  | zero =>
      intro slot other valid
      cases valid
  | succ cycle inductionHypothesis =>
      have wellFormed := run_wellFormed admitted cycle
      apply inductionHypothesis.step
        fun _ => allocatedAt_le rob.reset stimulus cycle
      · intro slot valid
        obtain ⟨noFlush, stays, _⟩ := robD_valid.mp valid
        exact WellFormed.dist_headPtrD noFlush stays
      · intro slot valid
        exact (robD_valid.mp valid).2.2
      · intro slot other allocated source
        rw [(WellFormed.allocates_iff.mp allocated).2]
        rcases source with allocatedOther | valid
        · exact (WellFormed.allocates_iff.mp allocatedOther).2.le
        · exact ((wellFormed other).mp valid).le

/-- In the window, entries further from the tail are further from the head. -/
theorem WellFormed.dist_tail_of_closer
    (wellFormed : rob.WellFormed)
    (valid : (rob.robQ slot).valid = true)
    (validOther : (rob.robQ other).valid = true)
    (closer :
      Ring.dist rob.headPtrQ slot < Ring.dist rob.headPtrQ other) :
    Ring.dist rob.tailPtrQ slot < Ring.dist rob.tailPtrQ other :=
  (Ring.dist_from_end_lt_iff ((wellFormed slot).mp valid)
    ((wellFormed other).mp validOther)).mpr closer

/-- The search of a well-formed buffer finds the entry nearest to the tail. -/
theorem WellFormed.searchBack_eq_some
    (wellFormed : rob.WellFormed)
    (notZero : rsAddr ≠ 0)
    (writer : rob.WillWrite rsAddr slot)
    (youngest :
      ∀ other,
        rob.WillWrite rsAddr other →
        Ring.dist rob.headPtrQ other ≤ Ring.dist rob.headPtrQ slot) :
    Ring.searchBack rob.tailPtrQ (rob.writes rsAddr) 16
      (rob.tailPtrQ - 1) = some slot := by
  rw [Ring.searchBack_eq_some]
  refine ⟨?_, writes_iff.mpr ⟨notZero, writer⟩, ?_⟩
  · intro isTail
    have valid := writer.valid
    rw [isTail, wellFormed.tail_free] at valid
    cases valid
  · intro other behind
    by_contra writes
    have otherWriter :=
      (writes_iff.mp (by simpa using writes)).2
    rcases Nat.lt_or_eq_of_le (youngest other otherWriter) with
      closer | level
    · have closerTail :=
        wellFormed.dist_tail_of_closer otherWriter.valid writer.valid closer
      exact Nat.lt_asymm behind closerTail
    · rw [Ring.dist_injective level] at behind
      exact Nat.lt_irrefl _ behind

/-- The search of a well-formed buffer finds nothing, or the last entry in use
that will write the register. -/
theorem WellFormed.hazard_cases
    (wellFormed : rob.WellFormed)
    (rsAddr : RegAddr) :
    (rob.hazard rsAddr = noHazard ∧
        ∀ slot,
          (rob.robQ slot).valid = true → rob.writes rsAddr slot = false) ∨
      ∃ slot,
        rob.hazard rsAddr = rob.hazardAt slot ∧
          rob.writes rsAddr slot = true ∧
          ∀ other,
            (rob.robQ other).valid = true →
            Ring.dist rob.headPtrQ slot < Ring.dist rob.headPtrQ other →
            rob.writes rsAddr other = false := by
  rw [hazard_eq]
  cases isFound :
      Ring.searchBack rob.tailPtrQ (rob.writes rsAddr) 16
        (rob.tailPtrQ - 1) with
  | none =>
      left
      refine ⟨rfl, ?_⟩
      intro slot valid
      by_contra writes
      have notTail : slot ≠ rob.tailPtrQ := by
        intro isTail
        rw [isTail, wellFormed.tail_free] at valid
        cases valid
      obtain ⟨found, finds, _⟩ :=
        Ring.exists_searchBack notTail (Bool.not_eq_false _ ▸ writes)
      rw [isFound] at finds
      cases finds
  | some found =>
      right
      obtain ⟨_, isWriter, last⟩ := Ring.searchBack_eq_some.mp isFound
      refine ⟨found, rfl, isWriter, ?_⟩
      intro other valid further
      have foundValid := (writes_iff.mp isWriter).2.valid
      exact last other
        (wellFormed.dist_tail_of_closer foundValid valid further)

/--
In every state of every run that never allocates into a full or flushing
buffer, the search for a source register reports a hazard exactly when the
register is not x0 and an entry in use will write it, and then it reports the
slot, the completion and the result of the one that was allocated last.
-/
theorem hazard_newest
    (admitted :
      ∀ cycle,
        (Clocked.run step rob.reset stimulus cycle).Admits
          (stimulus cycle).alloc)
    (cycle : Nat)
    (rsAddr : RegAddr) :
    (((Clocked.run step rob.reset stimulus cycle).hazard rsAddr).hazard =
          true ↔
        rsAddr ≠ 0 ∧
          ∃ slot,
            (Clocked.run step rob.reset stimulus cycle).WillWrite rsAddr
              slot) ∧
      ∀ slot,
        rsAddr ≠ 0 →
        (Clocked.run step rob.reset stimulus cycle).WillWrite rsAddr slot →
        (∀ other,
          (Clocked.run step rob.reset stimulus cycle).WillWrite rsAddr
            other →
          allocatedAt rob.reset stimulus cycle other ≤
            allocatedAt rob.reset stimulus cycle slot) →
        (Clocked.run step rob.reset stimulus cycle).hazard rsAddr =
          (Clocked.run step rob.reset stimulus cycle).hazardAt slot := by
  have wellFormed := run_wellFormed admitted cycle
  have increasing := allocatedAt_increasing admitted cycle
  generalize Clocked.run step rob.reset stimulus cycle = state
    at wellFormed increasing ⊢
  rw [hazard_eq]
  refine ⟨?_, ?_⟩
  · constructor
    · intro hazards
      cases isFound :
          Ring.searchBack state.tailPtrQ (state.writes rsAddr) 16
            (state.tailPtrQ - 1) with
      | none =>
          rw [isFound] at hazards
          cases hazards
      | some found =>
          obtain ⟨_, isWriter, _⟩ := Ring.searchBack_eq_some.mp isFound
          obtain ⟨notZero, writer⟩ := writes_iff.mp isWriter
          exact ⟨notZero, found, writer⟩
    · rintro ⟨notZero, slot, writer⟩
      have notTail : slot ≠ state.tailPtrQ := by
        rintro rfl
        have valid := writer.valid
        rw [wellFormed.tail_free] at valid
        cases valid
      obtain ⟨found, isFound, _⟩ :=
        Ring.exists_searchBack notTail (writes_iff.mpr ⟨notZero, writer⟩)
      rw [isFound]
      rfl
  · intro slot notZero writer newest
    have youngest :
        ∀ other,
          state.WillWrite rsAddr other →
          Ring.dist state.headPtrQ other ≤
            Ring.dist state.headPtrQ slot := by
      intro other otherWriter
      by_contra further
      have later :=
        increasing _ _ writer.valid otherWriter.valid
          (Nat.lt_of_not_le further)
      exact Nat.not_le_of_lt later (newest other otherWriter)
    rw [wellFormed.searchBack_eq_some notZero writer youngest]

/-- Of the two pending writers of x5 the search reports the second one, with its
result, while the first one is not completed. -/
theorem hazard_newest_overtaking :
    let state := Clocked.run step beforeReset.reset overtaking 4
    state.WillWrite 5 0 ∧
      state.WillWrite 5 1 ∧
      (state.robQ 0).completed = false ∧
      state.hazard 5 =
        { hazard := true, robEntry := 1, completed := true, result := 9 } := by
  intro state
  have first : state.WillWrite 5 0 := by
    constructor <;> decide +kernel
  have second : state.WillWrite 5 1 := by
    constructor <;> decide +kernel
  have searched :
      ∀ other,
        state.writes 5 other = true →
        allocatedAt beforeReset.reset overtaking 4 other ≤
          allocatedAt beforeReset.reset overtaking 4 1 := by
    decide +kernel
  have newest :
      ∀ other,
        state.WillWrite 5 other →
        allocatedAt beforeReset.reset overtaking 4 other ≤
          allocatedAt beforeReset.reset overtaking 4 1 :=
    fun other writer => searched other (writes_iff.mpr ⟨by decide, writer⟩)
  have reported : state.hazard 5 = state.hazardAt 1 :=
    (hazard_newest overtaking_admits 4 5).2 1 (by decide) second newest
  rw [reported]
  exact ⟨first, second, by decide +kernel, by decide +kernel⟩

end Rob

end Tartaruga
