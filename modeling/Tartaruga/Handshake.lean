import Tartaruga.Clocked

namespace Handshake

/-!
# Items that are presented until they are taken

A source presents at most one item in a cycle, and presents it again until its
reader is ready.  A monitor that looks at the source in every cycle sees an
item once for every cycle of waiting.
-/

variable {Item View : Type}

/-- An item that is not taken is presented again. -/
def Held (presented : Nat → Option Item) (ready : Nat → Bool) : Prop :=
  ∀ cycle item,
    presented cycle = some item →
    ready cycle = false →
    presented (cycle + 1) = some item

/-- The item that is taken in a cycle. -/
def taken
    (presented : Nat → Option Item)
    (ready : Nat → Bool)
    (cycle : Nat) :
    Option Item :=
  if ready cycle then presented cycle else none

/-- The items that have been presented in the first cycles, each of them once:
those taken before the last cycle, and the one presented in it. -/
def arrived
    (presented : Nat → Option Item)
    (ready : Nat → Bool) :
    Nat → List Item
  | 0 => []
  | cycle + 1 =>
      Clocked.collect (taken presented ready) cycle ++
        (presented cycle).toList

/-- What a monitor notes that looks at the source in every cycle. -/
def noted
    (presented : Nat → Option Item)
    (view : Item → Option View) :
    Nat → List View :=
  Clocked.collect fun cycle => (presented cycle).bind view

/-- No item that the monitor notes waits for its reader, the last cycle
aside. -/
def Prompt
    (presented : Nat → Option Item)
    (ready : Nat → Bool)
    (view : Item → Option View)
    (cycles : Nat) :
    Prop :=
  ∀ cycle,
    cycle + 1 < cycles →
    ((presented cycle).bind view).isSome = true →
    ready cycle = true

section Monitor

variable {presented : Nat → Option Item} {ready : Nat → Bool}

/-- After an item that waits nothing new arrives. -/
theorem arrived_of_waiting
    (held : Held presented ready)
    {cycle : Nat}
    {item : Item}
    (waits : presented cycle = some item)
    (notReady : ready cycle = false) :
    arrived presented ready (cycle + 2) =
      arrived presented ready (cycle + 1) := by
  have again := held cycle item waits notReady
  have notTaken : taken presented ready cycle = none := by
    rw [taken, notReady]
    rfl
  simp only [arrived, Clocked.collect_succ, notTaken, waits, again,
    Option.toList_none, List.append_nil]

/-- Otherwise the next item arrives, if there is one. -/
theorem arrived_of_prompt
    {cycle : Nat}
    (prompt : presented cycle = none ∨ ready cycle = true) :
    arrived presented ready (cycle + 2) =
      arrived presented ready (cycle + 1) ++
        (presented (cycle + 1)).toList := by
  have leaves : taken presented ready cycle = presented cycle := by
    rcases prompt with nothing | isReady
    · rw [taken, nothing, ite_self]
    · rw [taken, isReady]
      rfl
  simp only [arrived, Clocked.collect_succ, leaves]

variable (view : Item → Option View)

/-- What the monitor notes of one item. -/
theorem filterMap_toList (item : Option Item) :
    item.toList.filterMap view = (item.bind view).toList := by
  cases item with
  | none => rfl
  | some item => cases noted : view item <;> simp [noted]

/-- One more cycle is prompt if its predecessor did not make the monitor look
at a waiting item. -/
theorem prompt_succ_succ (cycle : Nat) :
    Prompt presented ready view (cycle + 2) ↔
      Prompt presented ready view (cycle + 1) ∧
        (((presented cycle).bind view).isSome = true →
          ready cycle = true) := by
  constructor
  · intro prompt
    refine ⟨?_, prompt cycle (Nat.lt_succ_self _)⟩
    intro earlier before
    exact prompt earlier (Nat.lt_succ_of_lt before)
  · rintro ⟨prompt, last⟩ earlier before isNoted
    rcases Nat.lt_or_eq_of_le (Nat.le_of_lt_succ before) with lt | eq
    · exact prompt earlier lt isNoted
    · obtain rfl : earlier = cycle := Nat.succ_inj.mp eq
      exact last isNoted

/-- The monitor notes at least what has arrived. -/
theorem length_arrived_le
    (held : Held presented ready)
    (cycles : Nat) :
    ((arrived presented ready cycles).filterMap view).length ≤
      (noted presented view cycles).length := by
  induction cycles with
  | zero => exact Nat.le_refl _
  | succ cycle inductionHypothesis =>
      cases cycle with
      | zero =>
          simp [arrived, noted, Clocked.collect_succ, filterMap_toList]
      | succ cycle =>
          rw [noted, Clocked.collect_succ, List.length_append]
          cases waits : presented cycle with
          | none =>
              rw [arrived_of_prompt (.inl waits), List.filterMap_append,
                filterMap_toList, List.length_append]
              exact Nat.add_le_add_right inductionHypothesis _
          | some item =>
              cases isReady : ready cycle with
              | false =>
                  rw [arrived_of_waiting held waits isReady]
                  exact Nat.le_add_right_of_le inductionHypothesis
              | true =>
                  rw [arrived_of_prompt (.inr isReady),
                    List.filterMap_append, filterMap_toList,
                    List.length_append]
                  exact Nat.add_le_add_right inductionHypothesis _

/--
The monitor notes every item once, in the order in which they arrive, exactly
when no item that it notes waits for its reader.
-/
theorem noted_eq_arrived_iff
    (held : Held presented ready)
    (cycles : Nat) :
    noted presented view cycles =
        (arrived presented ready cycles).filterMap view ↔
      Prompt presented ready view cycles := by
  induction cycles with
  | zero =>
      exact ⟨fun _ _ before => absurd before (Nat.not_lt_zero _),
        fun _ => rfl⟩
  | succ cycle inductionHypothesis =>
      cases cycle with
      | zero =>
          constructor
          · intro _ earlier before
            exact absurd (Nat.lt_of_succ_lt_succ before)
              (Nat.not_lt_zero _)
          · intro _
            simp [arrived, noted, Clocked.collect_succ, filterMap_toList]
      | succ cycle =>
          have grows :
              noted presented view (cycle + 2) =
                noted presented view (cycle + 1) ++
                  ((presented (cycle + 1)).bind view).toList :=
            Clocked.collect_succ _ _
          have same
              (prompt : presented cycle = none ∨ ready cycle = true) :
              noted presented view (cycle + 2) =
                  (arrived presented ready (cycle + 2)).filterMap view ↔
                Prompt presented ready view (cycle + 1) := by
            rw [grows, arrived_of_prompt prompt, List.filterMap_append,
              filterMap_toList, List.append_left_inj, inductionHypothesis]
          rw [prompt_succ_succ]
          cases waits : presented cycle with
          | none => simp [same (.inl waits)]
          | some item =>
              cases isReady : ready cycle with
              | true => simp [same (.inr isReady)]
              | false =>
                  have again := held cycle item waits isReady
                  rw [grows, arrived_of_waiting held waits isReady, again]
                  cases isNoted : view item with
                  | none => simp [isNoted, inductionHypothesis]
                  | some line =>
                      -- one line more, and nothing new to account for it
                      have shorter := length_arrived_le view held (cycle + 1)
                      constructor
                      · intro equal
                        have lengths := congrArg List.length equal
                        simp only [Option.bind_some, isNoted,
                          Option.toList_some, List.length_append,
                          List.length_singleton] at lengths
                        omega
                      · rintro ⟨_, impossible⟩
                        simp [isNoted] at impossible

end Monitor

end Handshake
