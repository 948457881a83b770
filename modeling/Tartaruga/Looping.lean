import Mathlib.Logic.Function.Iterate

namespace Looping

/-!
# While loops

A loop that runs its body as long as a condition holds, with a bound on the
number of rounds, and the length of the current silence of a signal, which such
a loop counts.
-/

variable {State : Type} {continues : State → Bool} {body : State → State}
  {start last : State} {fuel rounds : Nat}

/-- The state in which the loop ends, if it does not need more rounds than
allowed. -/
def whileLoop (continues : State → Bool) (body : State → State) :
    Nat → State → Option State
  | 0, state => if continues state then none else some state
  | fuel + 1, state =>
      if continues state then whileLoop continues body fuel (body state)
      else some state

/-- The loop ends after this number of rounds. -/
structure Ends
    (continues : State → Bool)
    (body : State → State)
    (start : State)
    (rounds : Nat) :
    Prop where
  goesOn : ∀ earlier, earlier < rounds → continues (body^[earlier] start) = true
  stops : continues (body^[rounds] start) = false

/-- A loop that goes on ends one round later than from its next state. -/
theorem ends_succ_iff (goesOn : continues start = true) :
    Ends continues body start (rounds + 1) ↔
      Ends continues body (body start) rounds := by
  constructor
  · intro ends
    exact {
      goesOn := fun earlier before =>
        ends.goesOn (earlier + 1) (Nat.succ_lt_succ before)
      stops := ends.stops }
  · intro ends
    refine { goesOn := ?_, stops := ends.stops }
    intro earlier before
    cases earlier with
    | zero =>
        exact goesOn
    | succ earlier =>
        exact ends.goesOn earlier (Nat.lt_of_succ_lt_succ before)

/-- The loop has a result if it ends in time. -/
theorem whileLoop_eq_some_iff :
    whileLoop continues body fuel start = some last ↔
      ∃ rounds,
        rounds ≤ fuel ∧ Ends continues body start rounds ∧
          body^[rounds] start = last := by
  induction fuel generalizing start with
  | zero =>
      cases goesOn : continues start with
      | true =>
          simp only [whileLoop, goesOn, if_true]
          constructor
          · intro impossible
            cases impossible
          · rintro ⟨rounds, short, ends, _⟩
            obtain rfl := Nat.le_zero.mp short
            have stops : continues start = false := ends.stops
            rw [goesOn] at stops
            cases stops
      | false =>
          simp only [whileLoop, goesOn, Bool.false_eq_true, if_false,
            Option.some.injEq]
          constructor
          · rintro rfl
            exact
              ⟨0, Nat.le_refl 0,
                ⟨fun _ before => (Nat.not_lt_zero _ before).elim, goesOn⟩,
                rfl⟩
          · rintro ⟨rounds, short, _, reached⟩
            obtain rfl := Nat.le_zero.mp short
            exact reached
  | succ fuel inductionHypothesis =>
      cases goesOn : continues start with
      | true =>
          simp only [whileLoop, goesOn, if_true, inductionHypothesis]
          constructor
          · rintro ⟨rounds, short, ends, reached⟩
            exact
              ⟨rounds + 1, Nat.succ_le_succ short,
                (ends_succ_iff goesOn).mpr ends, reached⟩
          · rintro ⟨rounds, short, ends, reached⟩
            cases rounds with
            | zero =>
                have stops : continues start = false := ends.stops
                rw [goesOn] at stops
                cases stops
            | succ rounds =>
                exact
                  ⟨rounds, Nat.le_of_succ_le_succ short,
                    (ends_succ_iff goesOn).mp ends, reached⟩
      | false =>
          simp only [whileLoop, goesOn, Bool.false_eq_true, if_false,
            Option.some.injEq]
          constructor
          · rintro rfl
            exact
              ⟨0, Nat.zero_le _,
                ⟨fun _ before => (Nat.not_lt_zero _ before).elim, goesOn⟩,
                rfl⟩
          · rintro ⟨rounds, _, ends, reached⟩
            cases rounds with
            | zero =>
                exact reached
            | succ rounds =>
                have onward : continues start = true :=
                  ends.goesOn 0 (Nat.succ_pos rounds)
                rw [goesOn] at onward
                cases onward

/-- For how many cycles a signal has been silent. -/
def silence (signal : Nat → Bool) : Nat → Nat
  | 0 => 0
  | cycle + 1 => if signal cycle then 0 else silence signal cycle + 1

variable {signal : Nat → Bool} {count cycle : Nat}

/-- A silence is as long as the cycles it covers. -/
theorem le_silence_iff :
    count ≤ silence signal cycle ↔
      count ≤ cycle ∧
        ∀ earlier,
          earlier < cycle →
          cycle ≤ earlier + count →
          signal earlier = false := by
  induction cycle generalizing count with
  | zero =>
      constructor
      · intro short
        exact ⟨short, fun _ before => (Nat.not_lt_zero _ before).elim⟩
      · exact fun covered => covered.1
  | succ cycle inductionHypothesis =>
      cases sounds : signal cycle with
      | true =>
          simp only [silence, sounds, if_true]
          constructor
          · intro short
            obtain rfl := Nat.le_zero.mp short
            exact
              ⟨Nat.zero_le _, fun earlier before late =>
                (Nat.lt_irrefl _ (Nat.lt_of_lt_of_le before late)).elim⟩
          · rintro ⟨_, silent⟩
            by_contra long
            have quiet := silent cycle (Nat.lt_succ_self cycle) (by omega)
            rw [sounds] at quiet
            cases quiet
      | false =>
          simp only [silence, sounds, Bool.false_eq_true, if_false]
          cases count with
          | zero =>
              simp only [Nat.zero_le, true_and, true_iff]
              intro earlier before late
              exact (Nat.lt_irrefl _ (Nat.lt_of_lt_of_le before late)).elim
          | succ count =>
              rw [Nat.succ_le_succ_iff, inductionHypothesis]
              constructor
              · rintro ⟨short, silent⟩
                refine ⟨Nat.succ_le_succ short, ?_⟩
                intro earlier before late
                rcases Nat.lt_or_eq_of_le (Nat.le_of_lt_succ before) with
                  earlierStill | rfl
                · exact silent earlier earlierStill (by omega)
                · exact sounds
              · rintro ⟨short, silent⟩
                refine ⟨Nat.le_of_succ_le_succ short, ?_⟩
                intro earlier before late
                exact
                  silent earlier (Nat.lt_succ_of_lt before) (by omega)

end Looping
