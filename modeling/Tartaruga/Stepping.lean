import Mathlib.Logic.Function.Iterate

namespace Stepping

/-!
# Machines that make one step at a time

What a machine shows after some steps, and what a cell of its state holds: the
value of the last step that wrote it, or what it held before.
-/

variable {State Value : Type} {step : State → State} {state : State}

/-- Steps are made one group after the other. -/
theorem iterate_iterate
    (step : State → State)
    (state : State)
    (first second : Nat) :
    step^[second] (step^[first] state) = step^[second + first] state :=
  (Function.iterate_add_apply step second first state).symm

/-- None of the next steps leaves the straight path. -/
def Straight
    (step : State → State)
    (leaves : State → Bool)
    (state : State)
    (count : Nat) :
    Prop :=
  ∀ index, index < count → leaves (step^[index] state) = false

variable {leaves : State → Bool} {index start count : Nat}

theorem Straight.of_le
    (straight : Straight step leaves state count)
    (shorter : index ≤ count) :
    Straight step leaves state index :=
  fun earlier before => straight earlier (Nat.lt_of_lt_of_le before shorter)

/-- Straight pieces are put together. -/
theorem Straight.append
    {first second : Nat}
    (straight : Straight step leaves state first)
    (onward : Straight step leaves (step^[first] state) second) :
    Straight step leaves state (second + first) := by
  intro index before
  rcases Nat.lt_or_ge index first with inFirst | behind
  · exact straight index inFirst
  · obtain ⟨rest, rfl⟩ := Nat.exists_eq_add_of_le' behind
    rw [← iterate_iterate]
    exact onward rest (Nat.lt_of_add_lt_add_right before)

/-- A part of the state that some steps write and the others keep. -/
structure Cell (step : State → State) (Value : Type) where
  look : State → Value
  Writes : State → Prop
  value : State → Value
  kept : ∀ state, ¬ Writes state → look (step state) = look state
  written : ∀ state, Writes state → look (step state) = value state

namespace Cell

variable (cell : Cell step Value)

/-- A cell that is not written keeps what it holds. -/
theorem look_of_silent
    (silent :
      ∀ index,
        start ≤ index →
        index < start + count →
        ¬ cell.Writes (step^[index] state)) :
    cell.look (step^[start + count] state) =
      cell.look (step^[start] state) := by
  induction count with
  | zero =>
      rfl
  | succ count inductionHypothesis =>
      have last :=
        silent (start + count) (Nat.le_add_right _ _) (Nat.lt_succ_self _)
      have before :=
        inductionHypothesis fun index behind within =>
          silent index behind (Nat.lt_succ_of_lt within)
      rw [← Nat.add_assoc, Function.iterate_succ_apply',
        cell.kept _ last, before]

/-- A cell holds the value of the last step that wrote it. -/
theorem look_of_last
    (writes : cell.Writes (step^[index] state))
    (within : index < count)
    (last :
      ∀ later,
        index < later →
        later < count →
        ¬ cell.Writes (step^[later] state)) :
    cell.look (step^[count] state) = cell.value (step^[index] state) := by
  obtain ⟨rest, rfl⟩ := Nat.exists_eq_add_of_le (Nat.succ_le_of_lt within)
  rw [cell.look_of_silent last, Function.iterate_succ_apply',
    cell.written _ writes]

end Cell

end Stepping
