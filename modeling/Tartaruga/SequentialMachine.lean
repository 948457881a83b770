import Tartaruga.ArithmeticDecoding
import Tartaruga.CommitChain
import Tartaruga.RegisterPrograms

namespace Tartaruga

/-!
# The sequential machine

A machine that runs a program one instruction at a time: a program counter and
a register file, and for every instruction the decoder, the immediate
generator, the arithmetic unit, the multiplier and the comparator of the core.
-/

/-- The state between two instructions. -/
structure SequentialMachine where
  pc : Bus32
  registers : Regfile

/-- What an instruction shows when it is done. -/
structure ArchitecturalCommit where
  pc : Bus32
  instr : Bus32
  rdAddr : RegAddr
  writeEnable : Bool
  result : Bus32
  branchTaken : Bool
  newPc : Option Bus32
  deriving DecidableEq

namespace SequentialMachine

/-- The machine starts at address zero with all registers zero. -/
def initial : SequentialMachine where
  pc := 0
  registers := fun _ => 0

variable (word : Bus32 → Bus32) (machine : SequentialMachine)

/-- The next instruction with its operands. -/
def input : DecodeToExe :=
  .ofRegfile machine.pc (word machine.pc) 0 0 machine.registers

/-- What the decoder says about the next instruction. -/
def decoded : InstrData :=
  (machine.input word).instr

/-- The value that the instruction leaves behind. -/
def result : Bus32 :=
  if (machine.decoded word).wbOrigin = .pc4 then machine.pc + 4
  else Exe.ownResult (machine.input word)

/-- The instruction is a jump or a branch that is taken. -/
def taken : Bool :=
  Exe.takenBranch (machine.input word)

/-- Where a taken branch goes. -/
def target : Bus32 :=
  Exe.resAlu (machine.input word)

/-- The instruction writes the register. -/
def Writes (register : RegAddr) : Prop :=
  (machine.decoded word).writeEnable = true ∧
    (machine.decoded word).addrRd = register ∧ register ≠ 0

instance (register : RegAddr) :
    Decidable (machine.Writes word register) :=
  inferInstanceAs (Decidable (_ ∧ _ ∧ _))

/-- The machine after the instruction. -/
def step : SequentialMachine where
  pc := if machine.taken word then machine.target word else machine.pc + 4
  registers := fun register =>
    if machine.Writes word register then machine.result word
    else machine.registers register

/-- What the instruction shows. -/
def commit : ArchitecturalCommit where
  pc := machine.pc
  instr := word machine.pc
  rdAddr := (machine.decoded word).addrRd
  writeEnable := (machine.decoded word).writeEnable
  result := machine.result word
  branchTaken := machine.taken word
  newPc := if machine.taken word then some (machine.target word) else none

/-- The machine after some instructions. -/
def after (count : Nat) : SequentialMachine :=
  (step word)^[count] machine

/-- What the first instructions of the execution show. -/
def execution (count : Nat) : List ArchitecturalCommit :=
  Clocked.trace (step word) (commit word) initial count

/-- None of the next instructions is a taken branch. -/
def Straight (count : Nat) : Prop :=
  ∀ index, index < count → (machine.after word index).taken word = false

variable {word machine} {count index : Nat} {register : RegAddr}

@[simp] theorem after_zero : machine.after word 0 = machine :=
  rfl

/-- One more instruction is run at the end. -/
theorem after_succ (count : Nat) :
    machine.after word (count + 1) = (machine.after word count).step word :=
  Function.iterate_succ_apply' _ _ _

/-- Instructions are run one group after the other. -/
theorem after_after (first second : Nat) :
    (machine.after word first).after word second =
      machine.after word (second + first) :=
  (Function.iterate_add_apply _ _ _ _).symm

theorem Straight.of_le
    (straight : machine.Straight word count)
    (shorter : index ≤ count) :
    machine.Straight word index :=
  fun earlier before => straight earlier (Nat.lt_of_lt_of_le before shorter)

/-- Straight pieces of the execution are put together. -/
theorem Straight.append
    {first second : Nat}
    (straight : machine.Straight word first)
    (onward : (machine.after word first).Straight word second) :
    machine.Straight word (second + first) := by
  intro index before
  rcases Nat.lt_or_ge index first with inFirst | behind
  · exact straight index inFirst
  · obtain ⟨rest, rfl⟩ := Nat.exists_eq_add_of_le' behind
    rw [← after_after]
    exact onward rest (Nat.lt_of_add_lt_add_right before)

/-- A straight piece of the execution visits consecutive instructions. -/
theorem Straight.pc_after (straight : machine.Straight word count) :
    (machine.after word count).pc = pcAfter machine.pc count := by
  induction count with
  | zero =>
      exact (pcAfter_zero machine.pc).symm
  | succ count inductionHypothesis =>
      have notTaken := straight count (Nat.lt_succ_self count)
      rw [after_succ, step, notTaken, if_neg Bool.false_ne_true,
        inductionHypothesis (straight.of_le (Nat.le_succ count)),
        pcAfter_succ]

/-- An instruction that does not write a register leaves it. -/
theorem step_registers_of_not_writes
    (silent : ¬ machine.Writes word register) :
    (machine.step word).registers register = machine.registers register :=
  if_neg silent

/-- An instruction that writes a register leaves its result there. -/
theorem step_registers_of_writes
    (writes : machine.Writes word register) :
    (machine.step word).registers register = machine.result word :=
  if_pos writes

/-- A register that is not written keeps its contents. -/
theorem registers_after_of_silent
    {start count : Nat}
    (silent :
      ∀ index,
        start ≤ index →
        index < start + count →
        ¬ (machine.after word index).Writes word register) :
    (machine.after word (start + count)).registers register =
      (machine.after word start).registers register := by
  induction count with
  | zero =>
      rfl
  | succ count inductionHypothesis =>
      have last := silent (start + count) (Nat.le_add_right _ _)
        (Nat.lt_succ_self _)
      have before :=
        inductionHypothesis fun index behind within =>
          silent index behind (Nat.lt_succ_of_lt within)
      exact (congrArg (fun state => state.registers register)
        (after_succ (start + count))).trans
        ((step_registers_of_not_writes last).trans before)

/-- A register holds the result of the last instruction that wrote it. -/
theorem registers_after_of_last
    (writes : (machine.after word index).Writes word register)
    (within : index < count)
    (last :
      ∀ later,
        index < later →
        later < count →
        ¬ (machine.after word later).Writes word register) :
    (machine.after word count).registers register =
      (machine.after word index).result word := by
  obtain ⟨rest, rfl⟩ := Nat.exists_eq_add_of_le (Nat.succ_le_of_lt within)
  rw [registers_after_of_silent last, after_succ,
    step_registers_of_writes writes]

end SequentialMachine

end Tartaruga
