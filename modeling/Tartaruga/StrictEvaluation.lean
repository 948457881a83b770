import Tartaruga.Clocked
import Mathlib.Algebra.Order.Ring.Int
import Mathlib.Data.List.OfFn
import Mathlib.Data.Fin.Basic

/-!
# Strict evaluation

Evaluating a long run by definitional unfolding leaves the state of every
cycle as an unevaluated term over the state before it.  `force` hands a value
to its continuation in normal form, so that a run keeps states of bounded
size; `force_eq` says that it changes nothing else.
-/

/-- Types whose values can be brought to normal form before they are used. -/
class Strict (Value : Type) where
  force : {Result : Type} → Value → (Value → Result) → Result
  force_eq :
    ∀ {Result : Type} (value : Value) (use : Value → Result),
      force value use = use value

namespace Strict

variable {Value Image Left Right Event : Type}

instance : Strict Nat where
  force value use :=
    match value with
    | 0 => use 0
    | value + 1 => use (value + 1)
  force_eq value _ := by cases value <;> rfl

instance : Strict Bool where
  force value use :=
    match value with
    | true => use true
    | false => use false
  force_eq value _ := by cases value <;> rfl

/-- Force a value through an image from which it can be rebuilt. -/
abbrev ofInverse [Strict Image]
    (image : Value → Image)
    (rebuild : Image → Value)
    (inverse : ∀ value, rebuild (image value) = value) :
    Strict Value where
  force value use := force (image value) fun forced => use (rebuild forced)
  force_eq value use := by rw [force_eq, inverse]

instance {width : Nat} : Strict (BitVec width) :=
  ofInverse BitVec.toNat (BitVec.ofNat width) (by simp)

instance {size : Nat} [NeZero size] : Strict (Fin size) :=
  ofInverse Fin.val (Fin.ofNat size) (by simp)

instance [Strict Left] [Strict Right] : Strict (Left × Right) where
  force value use :=
    force value.1 fun left => force value.2 fun right => use (left, right)
  force_eq value use := by simp only [force_eq]

/-- Force the elements of a list from the front. -/
def forceList [Strict Value] {Result : Type} :
    List Value → (List Value → Result) → Result
  | [], use => use []
  | head :: rest, use =>
      force head fun head => forceList rest fun rest => use (head :: rest)

instance [Strict Value] : Strict (List Value) where
  force := forceList
  force_eq values use := by
    induction values generalizing use with
    | nil =>
        rfl
    | cons head rest inductionHypothesis =>
        simp only [forceList, force_eq, inductionHypothesis]

instance {size : Nat} [Strict Value] [Inhabited Value] :
    Strict (Fin size → Value) :=
  ofInverse List.ofFn (fun values slot => values.getD slot.val default)
    (fun table => by funext slot; simp)

instance {width : Nat} [Strict Value] [Inhabited Value] :
    Strict (BitVec width → Value) :=
  ofInverse (fun table (slot : Fin (2 ^ width)) => table (BitVec.ofFin slot))
    (fun table word => table word.toFin)
    (fun _ => rfl)

/-- A number of steps that pass forced states on, then an observation. -/
def observe [Strict Value]
    {Result : Type}
    (step : Value → Value)
    (observation : Value → Result) :
    Nat → Value → Result
  | 0, state => observation state
  | steps + 1, state => force (step state) (observe step observation steps)

/-- Forcing the states of a run does not change what is observed of it. -/
theorem observe_eq [Strict Value]
    {Result : Type}
    (step : Value → Value)
    (observation : Value → Result)
    (steps : Nat)
    (state : Value) :
    observe step observation steps state =
      observation (step^[steps] state) := by
  induction steps generalizing state with
  | zero =>
      rfl
  | succ steps inductionHypothesis =>
      rw [observe, force_eq, inductionHypothesis, Function.iterate_succ_apply]

/-- The events of a number of steps that pass forced states on. -/
def collect [Strict Value]
    (step : Value → Value)
    (emit : Value → Option Event) :
    Nat → Value → List Event
  | 0, _ => []
  | steps + 1, state =>
      (emit state).toList ++ force (step state) (collect step emit steps)

/-- They are the events of the run. -/
theorem collect_eq [Strict Value]
    (step : Value → Value)
    (emit : Value → Option Event)
    (steps : Nat)
    (state : Value) :
    collect step emit steps state =
      Clocked.collect (fun cycle => emit (step^[cycle] state)) steps := by
  induction steps generalizing state with
  | zero =>
      rfl
  | succ steps inductionHypothesis =>
      rw [collect, force_eq, inductionHypothesis, Clocked.collect_succ_front]
      rfl

/-- A check of every state up to a number of steps. -/
def always [Strict Value]
    (step : Value → Value)
    (check : Value → Bool) :
    Nat → Value → Bool
  | 0, state => check state
  | steps + 1, state =>
      check state && force (step state) (always step check steps)

/-- A passed check holds in every state it covers. -/
theorem check_of_always [Strict Value]
    {step : Value → Value}
    {check : Value → Bool}
    {steps : Nat}
    {state : Value}
    (passed : always step check steps state = true)
    {earlier : Nat}
    (covered : earlier ≤ steps) :
    check (step^[earlier] state) = true := by
  induction steps generalizing state earlier with
  | zero =>
      obtain rfl := Nat.le_zero.mp covered
      exact passed
  | succ steps inductionHypothesis =>
      rw [always, force_eq, Bool.and_eq_true] at passed
      cases earlier with
      | zero =>
          exact passed.1
      | succ earlier =>
          rw [Function.iterate_succ_apply]
          exact inductionHypothesis passed.2 (Nat.le_of_succ_le_succ covered)

end Strict
