import Tartaruga.CommittedStores
import Tartaruga.Handshake

namespace Tartaruga

/-!
# Program output

The memory stage displays a line at every clock edge at which the store buffer
presents a store to the output address.  The store is presented for as long as
the data cache takes to accept it.
-/

namespace MemStage

/-- What is displayed at a clock edge. -/
inductive Display where
  | executionSucceeded
  | executionFailed
  | error
  | output (data : Bus32)
  deriving Repr, DecidableEq

/-- A store to this address ends the simulation. -/
def finishAddr : Bus32 := 0x40000000

/-- A store to this address is displayed. -/
def outputAddr : Bus32 := 0x40000004

/-- The display of one clock edge.  It reads the outputs of the store buffer
only; the first three kinds are followed by `$finish`. -/
def display (storeBuffer : StoreBuffer) : Option Display :=
  if storeBuffer.rspValid && storeBuffer.addrOut == finishAddr then
    if storeBuffer.dataWr == 1 then some .executionSucceeded
    else if storeBuffer.dataWr == 2 then some .executionFailed
    else some .error
  else if storeBuffer.rspValid && storeBuffer.addrOut == outputAddr then
    some (.output storeBuffer.dataWr)
  else
    none

/-- The data word of an output line. -/
def Display.data? : Display → Option Bus32
  | .output data => some data
  | _ => none

/-- The data word of a store to the output address. -/
def outputData? (store : Store) : Option Bus32 :=
  if store.1 = outputAddr then some store.2 else none

end MemStage

namespace StoreBuffer

/-- The store that is presented to the data cache. -/
def presented (buffer : StoreBuffer) : Option Store :=
  if buffer.rspValid then some (buffer.addrOut, buffer.dataWr) else none

/-- A line is displayed for a store to the output address. -/
theorem display_data? (buffer : StoreBuffer) :
    (MemStage.display buffer).bind MemStage.Display.data? =
      buffer.presented.bind MemStage.outputData? := by
  cases valid : buffer.rspValid with
  | false => simp [MemStage.display, presented, valid]
  | true =>
      have distinct : MemStage.finishAddr ≠ MemStage.outputAddr := by decide
      by_cases finishes : buffer.addrOut = MemStage.finishAddr
      · simp only [MemStage.display, presented, valid, finishes,
          beq_self_eq_true, Bool.and_self, ↓reduceIte, Option.bind_some,
          MemStage.outputData?, if_neg distinct]
        split
        · rfl
        · split <;> rfl
      · by_cases isOutput : buffer.addrOut = MemStage.outputAddr
        · simp [MemStage.display, presented, valid, isOutput, distinct.symm,
            MemStage.outputData?, MemStage.Display.data?]
        · simp [MemStage.display, presented, valid, finishes, isOutput,
            MemStage.outputData?]

section Run

variable (stimulus : Nat → StoreBufferInput)

/-- The store presented in each cycle of a run. -/
def presentedAt (cycle : Nat) : Option Store :=
  (Clocked.run clock reset stimulus cycle).presented

/-- The data words displayed in the first `cycles` cycles. -/
def outputLines : Nat → List Bus32 :=
  Clocked.collect fun cycle =>
    (MemStage.display (Clocked.run clock reset stimulus cycle)).bind
      MemStage.Display.data?

/-- The committed stores that have reached the head in the first `cycles`
cycles, each of them once: those handed over before the last cycle, and the
one presented in it. -/
def reachedHead : Nat → List Store
  | 0 => []
  | cycle + 1 =>
      handedOver stimulus cycle ++ (presentedAt stimulus cycle).toList

/-- In no cycle but the last one does a store to the output address wait for
the data cache. -/
def OutputsAccepted (cycles : Nat) : Prop :=
  ∀ cycle,
    cycle + 1 < cycles →
    (Clocked.run clock reset stimulus cycle).rspValid = true →
    (Clocked.run clock reset stimulus cycle).addrOut =
      MemStage.outputAddr →
    (stimulus cycle).rspReady = true

/-- A presented store is held until the data cache accepts it. -/
theorem presented_held :
    Handshake.Held (presentedAt stimulus)
      fun cycle => (stimulus cycle).rspReady := by
  intro cycle store isPresented notReady
  simp only [presentedAt, presented] at isPresented
  split at isPresented
  case isTrue valid =>
    obtain ⟨again, sameAddr, sameData⟩ :=
      rspValid_held (run_wellFormed stimulus cycle) valid notReady
    rw [← isPresented, ← sameAddr, ← sameData]
    exact if_pos again
  case isFalse => cases isPresented

/-- What the data cache takes is what the buffer hands over. -/
theorem collect_taken (cycles : Nat) :
    Clocked.collect
        (Handshake.taken (presentedAt stimulus)
          fun cycle => (stimulus cycle).rspReady) cycles =
      handedOver stimulus cycles := by
  apply Clocked.collect_congr
  intro cycle _
  simp only [Handshake.taken, presentedAt, presented, handsOver]
  by_cases ready : (stimulus cycle).rspReady = true <;> simp [ready]

/-- The stores that have reached the head are the items that have arrived. -/
theorem reachedHead_eq (cycles : Nat) :
    reachedHead stimulus cycles =
      Handshake.arrived (presentedAt stimulus)
        (fun cycle => (stimulus cycle).rspReady) cycles := by
  cases cycles with
  | zero => rfl
  | succ cycle => rw [reachedHead, Handshake.arrived, collect_taken]

/-- The displayed lines are what a monitor of the handshake notes. -/
theorem outputLines_eq (cycles : Nat) :
    outputLines stimulus cycles =
      Handshake.noted (presentedAt stimulus) MemStage.outputData? cycles :=
  Clocked.collect_congr fun _ _ => display_data? _

/-- A store to the output address waits, in terms of the handshake. -/
theorem outputsAccepted_iff (cycles : Nat) :
    OutputsAccepted stimulus cycles ↔
      Handshake.Prompt (presentedAt stimulus)
        (fun cycle => (stimulus cycle).rspReady) MemStage.outputData?
        cycles := by
  have isOutput_iff (cycle : Nat) :
      ((presentedAt stimulus cycle).bind MemStage.outputData?).isSome =
          true ↔
        (Clocked.run clock reset stimulus cycle).rspValid = true ∧
          (Clocked.run clock reset stimulus cycle).addrOut =
            MemStage.outputAddr := by
    simp only [presentedAt, presented]
    cases (Clocked.run clock reset stimulus cycle).rspValid <;>
      simp [MemStage.outputData?]
  constructor
  · intro accepted cycle before isOutput
    obtain ⟨valid, addr⟩ := (isOutput_iff cycle).mp isOutput
    exact accepted cycle before valid addr
  · intro prompt cycle before valid addr
    exact prompt cycle before ((isOutput_iff cycle).mpr ⟨valid, addr⟩)

/--
For every sequence of stores, commits and discards, and whatever the data cache
takes to accept a store: the displayed lines are the data words of the committed
stores to the output address that have reached the head, one line a store and
in order, exactly when none of them had to wait.
-/
theorem outputLines_eq_reachedHead_iff (cycles : Nat) :
    outputLines stimulus cycles =
        (reachedHead stimulus cycles).filterMap MemStage.outputData? ↔
      OutputsAccepted stimulus cycles := by
  rw [outputLines_eq, reachedHead_eq, outputsAccepted_iff]
  exact Handshake.noted_eq_arrived_iff MemStage.outputData?
    (presented_held stimulus) cycles

variable {stimulus}

/-- Under the protocol of the pipeline the stores that have reached the head
are the first ones that were committed. -/
theorem reachedHead_prefix_committed
    {cycle : Nat}
    (follows :
      ∀ earlier,
        earlier < cycle →
        (Clocked.run clock reset stimulus earlier).Follows
          (stimulus earlier)) :
    reachedHead stimulus (cycle + 1) <+: committedStores stimulus cycle := by
  have represents := run_represents follows
  have wellFormed := run_wellFormed stimulus cycle
  rw [← handedOver_append_waiting follows, reachedHead,
    List.prefix_append_right_inj]
  cases queue : drain stimulus cycle with
  | nil =>
      have free := represents.head_none wellFormed
        (congrArg List.head? queue)
      simp [presentedAt, presented, rspValid, free]
  | cons item rest =>
      obtain ⟨valid, holds⟩ := represents.head wellFormed
        (congrArg List.head? queue)
      have committed := holds.isCommitted
      rw [DrainQueue.waiting_cons]
      cases flag :
          (Clocked.run clock reset stimulus cycle).headEntry.committed with
      | false => simp [presentedAt, presented, rspValid, flag]
      | true =>
          rw [committed, flag]
          simp [presentedAt, presented, rspValid, addrOut, dataWr, valid,
            flag, DrainQueue.Item.key, holds.store]

end Run

/-- One store to the output address is inserted and committed; the data cache
needs one cycle more to accept it. -/
def slowOutput : Nat → StoreBufferInput
  | 0 =>
      { idleInput with
        reqValid := true, addr := MemStage.outputAddr, data := 7 }
  | 1 => { idleInput with commit := true }
  | 2 => idleInput
  | _ => { idleInput with rspReady := true }

/-- It is displayed twice. -/
theorem outputLines_not_once :
    ¬∀ (stimulus : Nat → StoreBufferInput) (cycles : Nat),
      outputLines stimulus cycles =
        (reachedHead stimulus cycles).filterMap MemStage.outputData? := by
  intro once
  have same := once slowOutput 4
  revert same
  decide +kernel

end StoreBuffer

namespace Core

/-- The data words displayed in the first cycles of a run of the core. -/
def outputLines (powerUp : Core) : Nat → List Bus32 :=
  Clocked.collect fun cycle =>
    (MemStage.display (powerUp.run cycle).datapath.mem.storeBuffer).bind
      MemStage.Display.data?

/-- A run of the core prints what its store buffer makes it print. -/
theorem outputLines_eq (powerUp : Core) (cycles : Nat) :
    powerUp.outputLines cycles =
      StoreBuffer.outputLines powerUp.storeBufferStimulus cycles := by
  apply Clocked.collect_congr
  intro cycle _
  rw [run_storeBuffer]

end Core

end Tartaruga
