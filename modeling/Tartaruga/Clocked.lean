import Mathlib.Data.List.Basic
import Mathlib.Data.List.Chain
import Mathlib.Data.List.Range

namespace Clocked

/-!
# Runs of clocked modules

A clocked module is a transition function on its registers.  A run applies it
once for every cycle of a stimulus; the events of a run are collected in cycle
order.  Nothing here depends on what the registers are.
-/

variable {State Input Event Key : Type}

/-- The registers after a number of clock edges under a stimulus. -/
def run
    (clock : State → Input → State)
    (initial : State)
    (stimulus : Nat → Input) :
    Nat → State
  | 0 => initial
  | cycle + 1 => clock (run clock initial stimulus cycle) (stimulus cycle)

/--
An invariant that every admissible cycle preserves holds in every state of an
admissible run.
-/
theorem run_invariant
    {clock : State → Input → State}
    {initial : State}
    {stimulus : Nat → Input}
    {invariant : State → Prop}
    {admissible : State → Input → Prop}
    (starts : invariant initial)
    (preserved :
      ∀ state input,
        admissible state input →
        invariant state →
        invariant (clock state input))
    (admitted :
      ∀ cycle,
        admissible (run clock initial stimulus cycle) (stimulus cycle)) :
    ∀ cycle, invariant (run clock initial stimulus cycle) := by
  intro cycle
  induction cycle with
  | zero =>
      exact starts
  | succ cycle inductionHypothesis =>
      exact preserved _ _ (admitted cycle) inductionHypothesis

/-- The events of the first `cycles` cycles, oldest first. -/
def collect (emit : Nat → Option Event) (cycles : Nat) : List Event :=
  (List.range cycles).filterMap emit

@[simp] theorem collect_zero (emit : Nat → Option Event) :
    collect emit 0 = [] :=
  rfl

/-- One more cycle appends its event, if it has one. -/
theorem collect_succ (emit : Nat → Option Event) (cycles : Nat) :
    collect emit (cycles + 1) =
      collect emit cycles ++ (emit cycles).toList := by
  unfold collect
  rw [List.range_succ, List.filterMap_append]
  cases emitted : emit cycles <;> simp [emitted]

/-- The event of the first cycle, if there is one, comes first. -/
theorem collect_succ_front (emit : Nat → Option Event) (cycles : Nat) :
    collect emit (cycles + 1) =
      (emit 0).toList ++ collect (fun cycle => emit (cycle + 1)) cycles := by
  unfold collect
  rw [List.range_succ_eq_map, List.filterMap_cons, List.filterMap_map]
  cases emitted : emit 0 <;> rfl

/-- A cycle with an event appends exactly that event. -/
theorem collect_succ_some
    {emit : Nat → Option Event}
    {cycles : Nat}
    {event : Event}
    (emits : emit cycles = some event) :
    collect emit (cycles + 1) = collect emit cycles ++ [event] := by
  rw [collect_succ, emits]
  rfl

/-- A cycle without an event appends nothing. -/
theorem collect_succ_none
    {emit : Nat → Option Event}
    {cycles : Nat}
    (silent : emit cycles = none) :
    collect emit (cycles + 1) = collect emit cycles := by
  rw [collect_succ, silent]
  simp

/-- Collecting looks at the cycles it covers only. -/
theorem collect_congr
    {left right : Nat → Option Event}
    {cycles : Nat}
    (same : ∀ cycle, cycle < cycles → left cycle = right cycle) :
    collect left cycles = collect right cycles := by
  unfold collect
  apply List.filterMap_congr
  intro cycle member
  exact same cycle (List.mem_range.mp member)

/-- A view of every event is a view of the collected events. -/
theorem map_collect
    {View : Type}
    (view : Event → View)
    (emit : Nat → Option Event)
    (cycles : Nat) :
    (collect emit cycles).map view =
      collect (fun cycle => (emit cycle).map view) cycles := by
  unfold collect
  rw [List.map_filterMap]

/-- A collected event was emitted in one of the cycles. -/
theorem mem_collect
    {emit : Nat → Option Event}
    {cycles : Nat}
    {event : Event} :
    event ∈ collect emit cycles ↔
      ∃ cycle, cycle < cycles ∧ emit cycle = some event := by
  simp [collect, List.mem_filterMap]

/--
Follow a key along a run: every event carries the key expected in its cycle,
and only an event changes the expectation, to its own successor key.  Then the
first event carries the initial key and each later event the successor key of
the event before it.
-/
theorem collect_chain
    {emit : Nat → Option Event}
    {expected : Nat → Key}
    {key next : Event → Key}
    {cycles : Nat}
    (carried :
      ∀ cycle event,
        cycle < cycles →
        emit cycle = some event →
        key event = expected cycle)
    (advanced :
      ∀ cycle event,
        cycle < cycles →
        emit cycle = some event →
        expected (cycle + 1) = next event)
    (kept :
      ∀ cycle,
        cycle < cycles →
        emit cycle = none →
        expected (cycle + 1) = expected cycle) :
    (collect emit cycles).IsChain
        (fun before after => key after = next before) ∧
      (∀ first ∈ (collect emit cycles).head?, key first = expected 0) ∧
      expected cycles =
        ((collect emit cycles).getLast?.map next).getD (expected 0) := by
  induction cycles with
  | zero =>
      simp
  | succ cycles inductionHypothesis =>
      obtain ⟨chain, starts, reached⟩ :=
        inductionHypothesis
          (fun cycle event before =>
            carried cycle event (Nat.lt_succ_of_lt before))
          (fun cycle event before =>
            advanced cycle event (Nat.lt_succ_of_lt before))
          (fun cycle before => kept cycle (Nat.lt_succ_of_lt before))
      have last := Nat.lt_succ_self cycles
      cases emitted : emit cycles with
      | none =>
          rw [collect_succ_none emitted, kept cycles last emitted]
          exact ⟨chain, starts, reached⟩
      | some event =>
          rw [collect_succ_some emitted, advanced cycles event last emitted]
          have carries := carried cycles event last emitted
          refine ⟨?_, ?_, by simp⟩
          · rw [List.isChain_append]
            refine ⟨chain, List.isChain_singleton _, ?_⟩
            intro before isLast after isEvent
            simp only [List.head?_cons, Option.mem_some_iff] at isEvent
            subst isEvent
            rw [carries, reached, Option.mem_def.mp isLast]
            rfl
          · intro first isFirst
            cases events : collect emit cycles with
            | nil =>
                rw [events] at isFirst reached
                simp only [List.nil_append, List.head?_cons,
                  Option.mem_some_iff] at isFirst
                subst isFirst
                rw [carries, reached]
                rfl
            | cons head rest =>
                rw [events] at isFirst starts
                exact starts first (by simpa using isFirst)

/-- What a machine shows that makes one step for every event. -/
def trace
    (step : State → State)
    (shows : State → Event)
    (start : State)
    (count : Nat) :
    List Event :=
  (List.range count).map fun index => shows (step^[index] start)

/--
Follow a machine along a run: the machine makes a step for every event and
stands still otherwise, and every event is what the machine shows in its
cycle.  Then the events are the beginning of what the machine shows.
-/
theorem collect_eq_trace
    {emit : Nat → Option Event}
    {step : State → State}
    {shows : State → Event}
    {cycles : Nat}
    (machine : Nat → State)
    (shown :
      ∀ cycle event,
        cycle < cycles →
        emit cycle = some event →
        event = shows (machine cycle))
    (advanced :
      ∀ cycle event,
        cycle < cycles →
        emit cycle = some event →
        machine (cycle + 1) = step (machine cycle))
    (kept :
      ∀ cycle,
        cycle < cycles →
        emit cycle = none →
        machine (cycle + 1) = machine cycle) :
    collect emit cycles =
        trace step shows (machine 0) (collect emit cycles).length ∧
      machine cycles = step^[(collect emit cycles).length] (machine 0) := by
  induction cycles with
  | zero =>
      exact ⟨rfl, rfl⟩
  | succ cycles inductionHypothesis =>
      obtain ⟨sameEvents, reached⟩ :=
        inductionHypothesis
          (fun cycle event before =>
            shown cycle event (Nat.lt_succ_of_lt before))
          (fun cycle event before =>
            advanced cycle event (Nat.lt_succ_of_lt before))
          (fun cycle before => kept cycle (Nat.lt_succ_of_lt before))
      have last := Nat.lt_succ_self cycles
      cases emitted : emit cycles with
      | none =>
          rw [collect_succ_none emitted, kept cycles last emitted]
          exact ⟨sameEvents, reached⟩
      | some event =>
          rw [collect_succ_some emitted, advanced cycles event last emitted,
            shown cycles event last emitted, List.length_append,
            List.length_singleton, Function.iterate_succ_apply', ← reached]
          refine ⟨?_, rfl⟩
          simp only [trace, List.range_succ, List.map_append,
            List.map_singleton, ← reached]
          exact congrArg (· ++ _) sameEvents

section ShiftRegister

variable {Stage : Type} {length : Nat}
  (line : Nat → Fin (length + 1) → Stage) (input : Nat → Stage)
  (enters : ∀ cycle, line (cycle + 1) 0 = input cycle)
  (moves :
    ∀ cycle (stage : Fin length),
      line (cycle + 1) stage.succ = line cycle stage.castSucc)

include enters moves in
/-- A stage of a shift register holds the input of as many cycles ago. -/
theorem shiftRegister_input (cycle : Nat) (stage : Fin (length + 1)) :
    line (cycle + stage.val + 1) stage = input cycle := by
  induction stage using Fin.induction with
  | zero =>
      exact enters cycle
  | succ stage inductionHypothesis =>
      rw [moves]
      exact inductionHypothesis

include moves in
/-- Before that, it holds what an earlier stage held in the beginning. -/
theorem shiftRegister_initial
    (cycle : Nat)
    (stage : Fin (length + 1))
    (early : cycle ≤ stage.val) :
    ∃ origin : Fin (length + 1),
      origin.val + cycle = stage.val ∧ line cycle stage = line 0 origin := by
  induction cycle generalizing stage with
  | zero =>
      exact ⟨stage, rfl, rfl⟩
  | succ cycle inductionHypothesis =>
      cases stage using Fin.cases with
      | zero =>
          exact (Nat.not_succ_le_zero cycle early).elim
      | succ stage =>
          obtain ⟨origin, position, holds⟩ :=
            inductionHypothesis stage.castSucc (Nat.le_of_succ_le_succ early)
          refine ⟨origin, congrArg Nat.succ position, ?_⟩
          rw [moves]
          exact holds

end ShiftRegister

end Clocked
