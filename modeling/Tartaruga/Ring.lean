import Mathlib.Algebra.Group.Fin.Basic
import Mathlib.Algebra.Order.Ring.Int
import Mathlib.Data.Fin.Basic
import Mathlib.Data.List.Range
import Mathlib.Data.List.Nodup

namespace Ring

/-!
# Circular windows

Slots of a ring are the elements of `Fin size`.  A window is described by the
slot where it starts and by how far each slot lies behind that start, counted
in the direction of increasing slots.
-/

variable {size : Nat}

/-- How many increments lead from `start` to `slot`. -/
def dist (start slot : Fin size) : Nat :=
  (slot - start).val

/-- Distances without modular arithmetic. -/
theorem dist_eq (start slot : Fin size) :
    dist start slot =
      if start.val ≤ slot.val then slot.val - start.val
      else size + slot.val - start.val := by
  unfold dist
  rw [Fin.sub_def]
  have startBound := start.isLt
  have slotBound := slot.isLt
  split
  · have shifted :
        size - start.val + slot.val =
          (slot.val - start.val) + size := by omega
    simp only [shifted, Nat.add_mod_right]
    exact Nat.mod_eq_of_lt (by omega)
  · have shifted :
        size - start.val + slot.val = size + slot.val - start.val := by
      omega
    simp only [shifted]
    exact Nat.mod_eq_of_lt (by omega)

theorem dist_lt (start slot : Fin size) : dist start slot < size :=
  (slot - start).isLt

@[simp] theorem dist_self (slot : Fin size) : dist slot slot = 0 := by
  simp [dist_eq]

/-- Only the start itself lies at distance zero. -/
theorem dist_eq_zero {start slot : Fin size} :
    dist start slot = 0 ↔ slot = start := by
  constructor
  · intro zero
    rw [dist_eq] at zero
    have slotBound := slot.isLt
    have startBound := start.isLt
    apply Fin.ext
    split at zero <;> omega
  · rintro rfl
    exact dist_self _

/-- Slots at the same distance are equal. -/
theorem dist_injective {start first second : Fin size}
    (same : dist start first = dist start second) :
    first = second := by
  rw [dist_eq, dist_eq] at same
  have firstBound := first.isLt
  have secondBound := second.isLt
  have startBound := start.isLt
  apply Fin.ext
  split at same <;> split at same <;> omega

/-- There is a slot at every distance. -/
theorem exists_dist (start : Fin size) {length : Nat}
    (fits : length < size) :
    ∃ slot : Fin size, dist start slot = length := by
  have bound := start.isLt
  by_cases wraps : start.val + length < size
  · refine ⟨⟨start.val + length, wraps⟩, ?_⟩
    rw [dist_eq, if_pos (by simp)]
    simp
  · refine ⟨⟨start.val + length - size, by omega⟩, ?_⟩
    rw [dist_eq, if_neg (by simp; omega)]
    simp only
    omega

/-- Slots in use carry tickets that grow with the distance from the start. -/
def Increasing
    (start : Fin size)
    (inUse : Fin size → Prop)
    (ticket : Fin size → Nat) :
    Prop :=
  ∀ slot other,
    inUse slot →
    inUse other →
    dist start slot < dist start other →
    ticket slot < ticket other

/--
Tickets stay increasing when the start moves by the same amount for every slot
that remains in use and a slot taken anew gets the next ticket.
-/
theorem Increasing.step
    {start next : Fin size}
    {inUse inUseNext taken : Fin size → Prop} [DecidablePred taken]
    {ticket : Fin size → Nat}
    {now shift : Nat}
    (increasing : Increasing start inUse ticket)
    (bounded : ∀ slot, ticket slot ≤ now)
    (moved :
      ∀ slot, inUseNext slot → dist next slot + shift = dist start slot)
    (source : ∀ slot, inUseNext slot → taken slot ∨ inUse slot)
    (behind :
      ∀ slot other,
        taken slot →
        taken other ∨ inUse other →
        dist start other ≤ dist start slot) :
    Increasing next inUseNext
      (fun slot => if taken slot then now + 1 else ticket slot) := by
  intro slot other used usedOther closer
  have wasCloser : dist start slot < dist start other := by
    have movedSlot := moved slot used
    have movedOther := moved other usedOther
    omega
  by_cases isTaken : taken slot
  · have notCloser := behind slot other isTaken (source other usedOther)
    exact (Nat.not_lt_of_le notCloser wasCloser).elim
  · have usedBefore := (source slot used).resolve_left isTaken
    simp only [isTaken, if_false]
    by_cases otherTaken : taken other
    · simp only [otherTaken, if_true]
      exact Nat.lt_succ_of_le (bounded slot)
    · simp only [otherTaken, if_false]
      exact increasing slot other usedBefore
        ((source other usedOther).resolve_left otherTaken) wasCloser

section Successor

variable [NeZero size]

/-- The successor slot without modular arithmetic. -/
theorem val_succ (slot : Fin size) :
    (slot + 1).val =
      if slot.val + 1 = size then 0 else slot.val + 1 := by
  have bound := slot.isLt
  rw [Fin.val_add, Fin.val_one']
  by_cases single : size = 1
  · subst single
    split <;> omega
  · have positive : 0 < size := Nat.pos_of_neZero size
    rw [Nat.mod_eq_of_lt (show 1 < size by omega)]
    split
    · rename_i wraps
      rw [wraps, Nat.mod_self]
    · exact Nat.mod_eq_of_lt (by omega)

/-- Moving the start past itself brings every other slot one closer. -/
theorem dist_succ_start {start slot : Fin size}
    (other : slot ≠ start) :
    dist (start + 1) slot + 1 = dist start slot := by
  rw [dist_eq, dist_eq, val_succ]
  have slotBound := slot.isLt
  have startBound := start.isLt
  have different : slot.val ≠ start.val := fun same => other (Fin.ext same)
  split <;> split <;> split <;> omega

/-- Moving the start past itself takes it to the far end. -/
theorem dist_succ_start_self (start : Fin size) :
    dist (start + 1) start + 1 = size := by
  rw [dist_eq, val_succ]
  have startBound := start.isLt
  split <;> split <;> omega

/-- Moving the start past itself, for every slot. -/
theorem dist_succ_start_mod (start slot : Fin size) :
    dist (start + 1) slot = (dist start slot + (size - 1)) % size := by
  have positive : 0 < size := Nat.pos_of_neZero size
  by_cases isStart : slot = start
  · subst isStart
    have far := dist_succ_start_self slot
    rw [dist_self, Nat.mod_eq_of_lt (by omega)]
    omega
  · have closer := dist_succ_start isStart
    have near := dist_lt (start + 1) slot
    have shifted :
        dist start slot + (size - 1) = dist (start + 1) slot + size := by
      omega
    rw [shifted, Nat.add_mod_right, Nat.mod_eq_of_lt near]

/-- The next slot is one further away, unless the window closes. -/
theorem dist_succ_slot (start slot : Fin size) :
    dist start (slot + 1) =
      if dist start slot + 1 = size then 0 else dist start slot + 1 := by
  rw [dist_eq, dist_eq, val_succ]
  have slotBound := slot.isLt
  have startBound := start.isLt
  split <;> split <;> split <;> split <;> omega

/-- The slot in front of another is one closer. -/
theorem dist_pred {start slot : Fin size}
    (other : slot ≠ start) :
    dist start (slot - 1) + 1 = dist start slot := by
  have next := dist_succ_slot start (slot - 1)
  rw [sub_add_cancel] at next
  have apart : dist start slot ≠ 0 := fun zero => other (dist_eq_zero.mp zero)
  split at next <;> omega

/-- The slot in front of the start is the furthest one. -/
theorem dist_pred_self (start : Fin size) :
    dist start (start - 1) + 1 = size := by
  have next := dist_succ_slot start (start - 1)
  rw [sub_add_cancel, dist_self] at next
  split at next <;> omega

omit [NeZero size] in
/-- Distances from the end of a window, for the slots inside it. -/
theorem dist_from_end {start stop slot : Fin size}
    (inside : dist start slot < dist start stop) :
    dist stop slot + dist start stop = dist start slot + size := by
  rw [dist_eq, dist_eq] at inside
  rw [dist_eq, dist_eq, dist_eq]
  have startBound := start.isLt
  have stopBound := stop.isLt
  have slotBound := slot.isLt
  split at inside <;> split at inside <;> split <;> omega

omit [NeZero size] in
/-- Slots inside a window keep their order when they are counted from its
end. -/
theorem dist_from_end_lt_iff {start stop slot other : Fin size}
    (inside : dist start slot < dist start stop)
    (insideOther : dist start other < dist start stop) :
    dist stop slot < dist stop other ↔
      dist start slot < dist start other := by
  have fromEnd := dist_from_end inside
  have fromEndOther := dist_from_end insideOther
  omega

/-- Search backwards for a slot, giving up in front of `stop`. -/
def searchBack
    (stop : Fin size)
    (wanted : Fin size → Bool) :
    Nat → Fin size → Option (Fin size)
  | 0, _ => none
  | rounds + 1, slot =>
      if slot = stop then none
      else if wanted slot then some slot
      else searchBack stop wanted rounds (slot - 1)

/-- With enough rounds the search finds the last wanted slot up to where it
began. -/
theorem searchBack_eq_some_of_rounds
    {stop slot found : Fin size}
    {wanted : Fin size → Bool}
    {rounds : Nat}
    (enough : dist stop slot < rounds) :
    searchBack stop wanted rounds slot = some found ↔
      found ≠ stop ∧ dist stop found ≤ dist stop slot ∧
        wanted found = true ∧
        ∀ other,
          dist stop found < dist stop other →
          dist stop other ≤ dist stop slot →
          wanted other = false := by
  induction rounds generalizing slot with
  | zero =>
      omega
  | succ rounds inductionHypothesis =>
      unfold searchBack
      by_cases atStop : slot = stop
      · subst atStop
        simp only [if_true, dist_self, reduceCtorEq, false_iff]
        rintro ⟨notStop, near, _⟩
        exact notStop (dist_eq_zero.mp (by omega))
      · rw [if_neg atStop]
        cases isWanted : wanted slot with
        | true =>
            simp only [if_true, Option.some.injEq]
            constructor
            · rintro rfl
              exact ⟨atStop, Nat.le_refl _, isWanted, fun _ _ _ => by omega⟩
            · rintro ⟨_, near, _, none⟩
              by_contra different
              have apart : dist stop found ≠ dist stop slot :=
                fun same => different (dist_injective same).symm
              have unwanted := none slot (by omega) (Nat.le_refl _)
              rw [isWanted] at unwanted
              cases unwanted
        | false =>
            have closer := dist_pred atStop
            rw [if_neg Bool.false_ne_true,
              inductionHypothesis (by omega)]
            constructor
            · rintro ⟨notStop, near, isFound, none⟩
              refine ⟨notStop, by omega, isFound, ?_⟩
              intro other behind upTo
              by_cases isSlot : other = slot
              · rw [isSlot]
                exact isWanted
              · have apart : dist stop other ≠ dist stop slot :=
                  fun same => isSlot (dist_injective same)
                exact none other behind (by omega)
            · rintro ⟨notStop, near, isFound, none⟩
              have apart : dist stop found ≠ dist stop slot := by
                intro same
                rw [dist_injective same, isWanted] at isFound
                cases isFound
              refine ⟨notStop, by omega, isFound, ?_⟩
              intro other behind upTo
              exact none other behind (by omega)

/-- A whole round of the search finds the last wanted slot in front of the
stop. -/
theorem searchBack_eq_some
    {stop found : Fin size}
    {wanted : Fin size → Bool} :
    searchBack stop wanted size (stop - 1) = some found ↔
      found ≠ stop ∧ wanted found = true ∧
        ∀ other,
          dist stop found < dist stop other →
          wanted other = false := by
  have furthest := dist_pred_self stop
  rw [searchBack_eq_some_of_rounds (dist_lt _ _)]
  constructor
  · rintro ⟨notStop, _, isFound, none⟩
    refine ⟨notStop, isFound, fun other behind => none other behind ?_⟩
    have bound := dist_lt stop other
    omega
  · rintro ⟨notStop, isFound, none⟩
    refine ⟨notStop, ?_, isFound, fun other behind _ => none other behind⟩
    have bound := dist_lt stop found
    omega

/-- The search finds something no earlier than any wanted slot. -/
theorem exists_searchBack
    {stop slot : Fin size}
    {wanted : Fin size → Bool}
    (notStop : slot ≠ stop)
    (isWanted : wanted slot = true) :
    ∃ found,
      searchBack stop wanted size (stop - 1) = some found ∧
        dist stop slot ≤ dist stop found := by
  induction gap : size - dist stop slot using Nat.strong_induction_on
    generalizing slot with
  | h gap inductionHypothesis =>
      by_cases last :
          ∀ other, dist stop slot < dist stop other → wanted other = false
      · exact ⟨slot, searchBack_eq_some.mpr ⟨notStop, isWanted, last⟩,
          Nat.le_refl _⟩
      · simp only [not_forall, Bool.not_eq_false] at last
        obtain ⟨other, behind, otherWanted⟩ := last
        have bound := dist_lt stop other
        have otherNotStop : other ≠ stop := by
          rintro rfl
          rw [dist_self] at behind
          omega
        obtain ⟨found, isFound, upTo⟩ :=
          inductionHypothesis (size - dist stop other) (by omega)
            otherNotStop otherWanted rfl
        exact ⟨found, isFound, by omega⟩

end Successor

end Ring
