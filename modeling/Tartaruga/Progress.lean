import Tartaruga.Clocked

namespace Clocked

/-!
# Bounded progress

Along a run one situation leads to another within a number of cycles.  The
rules put such steps together, follow a rank that falls until the goal is
reached, and count the events of a run that is never silent for long.
-/

/-- From a cycle on, the goal is reached within so many cycles. -/
def Within (goal : Nat → Prop) (start bound : Nat) : Prop :=
  ∃ delay, delay ≤ bound ∧ goal (start + delay)

variable {goal middle : Nat → Prop} {start bound : Nat}

/-- A goal that is reached now is reached within any bound. -/
theorem Within.now (reached : goal start) : Within goal start bound :=
  ⟨0, Nat.zero_le bound, reached⟩

/-- One cycle is spent before the rest of the bound. -/
theorem Within.later
    (after : Within goal (start + 1) bound) :
    Within goal start (bound + 1) := by
  obtain ⟨delay, inTime, reached⟩ := after
  refine ⟨delay + 1, Nat.succ_le_succ inTime, ?_⟩
  rwa [Nat.add_right_comm] at reached

/-- A longer bound is met as well. -/
theorem Within.of_le
    {longer : Nat}
    (within : Within goal start bound)
    (shorter : bound ≤ longer) :
    Within goal start longer := by
  obtain ⟨delay, inTime, reached⟩ := within
  exact ⟨delay, Nat.le_trans inTime shorter, reached⟩

/-- What the goal implies is reached as well. -/
theorem Within.imp
    (within : Within middle start bound)
    (implies : ∀ cycle, start ≤ cycle → middle cycle → goal cycle) :
    Within goal start bound := by
  obtain ⟨delay, inTime, reached⟩ := within
  exact ⟨delay, inTime, implies _ (Nat.le_add_right start delay) reached⟩

/-- A goal that leads to another one leads to it in the sum of the bounds. -/
theorem Within.bind
    {before after : Nat}
    (first : Within middle start before)
    (onward :
      ∀ cycle, start ≤ cycle → middle cycle → Within goal cycle after) :
    Within goal start (before + after) := by
  obtain ⟨delay, inTime, reached⟩ := first
  obtain ⟨rest, restInTime, reachedGoal⟩ :=
    onward (start + delay) (Nat.le_add_right start delay) reached
  refine ⟨delay + rest, Nat.add_le_add inTime restInTime, ?_⟩
  rwa [← Nat.add_assoc]

/-- A situation that stays until the goal is reached still holds then. -/
theorem Within.keep
    (situation : Nat → Prop)
    (within : Within goal start bound)
    (holds : situation start)
    (kept :
      ∀ cycle, situation cycle → ¬ goal cycle → situation (cycle + 1)) :
    Within (fun cycle => goal cycle ∧ situation cycle) start bound := by
  obtain ⟨delay, inTime, reached⟩ := within
  refine Within.of_le ?_ inTime
  clear inTime
  induction delay generalizing start with
  | zero =>
      exact .now ⟨reached, holds⟩
  | succ delay inductionHypothesis =>
      by_cases already : goal start
      · exact .now ⟨already, holds⟩
      · rw [← Nat.add_assoc, Nat.add_right_comm] at reached
        exact (inductionHypothesis (kept start holds already) reached).later

/--
A rank that falls in every cycle that does not reach the goal bounds the time
to the goal.
-/
theorem within_of_rank
    (ranked : Nat → Nat → Prop)
    (falls :
      ∀ cycle rank,
        ranked cycle rank →
        goal cycle ∨ ∃ lower, lower < rank ∧ ranked (cycle + 1) lower)
    {rank : Nat}
    (starts : ranked start rank) :
    Within goal start rank := by
  induction rank using Nat.strong_induction_on generalizing start with
  | _ rank inductionHypothesis =>
      rcases falls start rank starts with reached | ⟨lower, below, next⟩
      · exact .now reached
      · exact (inductionHypothesis lower below next).later.of_le below

variable {Event : Type} {emit : Nat → Option Event}

/-- Later cycles only add events. -/
theorem length_collect_le
    {earlier later : Nat}
    (ordered : earlier ≤ later) :
    (collect emit earlier).length ≤ (collect emit later).length := by
  induction ordered with
  | refl =>
      exact Nat.le_refl _
  | step _ inductionHypothesis =>
      rw [collect_succ, List.length_append]
      exact Nat.le_trans inductionHypothesis (Nat.le_add_right _ _)

/-- A run that before its end is silent for at most `bound` cycles shows as
many events as there are groups of `bound + 1` cycles. -/
theorem le_length_collect_before
    {horizon : Nat}
    (emits :
      ∀ cycle,
        cycle + bound < horizon →
        Within (fun cycle => (emit cycle).isSome) cycle bound)
    (count : Nat)
    (fits : count * (bound + 1) ≤ horizon) :
    count ≤ (collect emit (count * (bound + 1))).length := by
  induction count with
  | zero =>
      exact Nat.zero_le _
  | succ count inductionHypothesis =>
      have whole :
          (count + 1) * (bound + 1) = count * (bound + 1) + (bound + 1) :=
        Nat.succ_mul count (bound + 1)
      obtain ⟨delay, inTime, emitted⟩ :=
        emits (count * (bound + 1)) (by omega)
      obtain ⟨event, isEvent⟩ := Option.isSome_iff_exists.mp emitted
      calc
        count + 1 ≤ (collect emit (count * (bound + 1))).length + 1 :=
          Nat.succ_le_succ (inductionHypothesis (by omega))
        _ ≤ (collect emit (count * (bound + 1) + delay)).length + 1 :=
          Nat.succ_le_succ (length_collect_le (Nat.le_add_right _ _))
        _ = (collect emit (count * (bound + 1) + delay + 1)).length := by
          rw [collect_succ_some isEvent, List.length_append,
            List.length_singleton]
        _ ≤ (collect emit ((count + 1) * (bound + 1))).length :=
          length_collect_le (by omega)

/-- A run that is silent for at most `bound` cycles shows as many events as
there are groups of `bound + 1` cycles. -/
theorem le_length_collect
    (emits : ∀ cycle, Within (fun cycle => (emit cycle).isSome) cycle bound)
    (count : Nat) :
    count ≤ (collect emit (count * (bound + 1))).length :=
  le_length_collect_before (fun cycle _ => emits cycle) count (Nat.le_refl _)

end Clocked
