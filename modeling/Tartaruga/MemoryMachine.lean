import Tartaruga.MemoryLines
import Tartaruga.OpcodeDecoding
import Tartaruga.PipelineValues
import Tartaruga.Stepping
import Tartaruga.StoreBufferDrain

namespace Tartaruga

/-!
# The sequential machine with a memory

The machine runs a program one instruction at a time, loads and stores
included: a load takes the word of the memory at its address, and a store
leaves its operand there.
-/

/-- The state between two instructions. -/
structure MemoryMachine extends front : SequentialMachine where
  memory : Memory

namespace Memory

/-- The memory after a store, if there is one. -/
def perform (memory : Memory) : Option Store → Memory
  | some store => memory.writeMem store.1 store.2
  | none => memory

/-- The store meets the word at the address. -/
def Meets (store : Store) (addr : Bus32) : Prop :=
  inRange store.1 = true ∧ index store.1 = index addr

variable {memory : Memory} {store : Store} {addr : Bus32}

/-- A store leaves its data in the word that it meets. -/
theorem readMem_of_meets
    (isWord : IsWord addr)
    (meets : Meets store addr) :
    (memory.writeMem store.1 store.2).readMem addr = store.2 := by
  obtain ⟨inRange, same⟩ := meets
  simp [readMem, writeMem, isWord.inRange, inRange, same]

/-- A store does not touch another word. -/
theorem readMem_of_not_meets (apart : ¬ Meets store addr) :
    (memory.writeMem store.1 store.2).readMem addr = memory.readMem addr := by
  simp only [readMem, writeMem]
  by_cases inRange : inRange store.1 = true
  · have other : index addr ≠ index store.1 :=
      fun same => apart ⟨inRange, same.symm⟩
    rw [if_pos inRange, Function.update_of_ne other]
  · rw [if_neg inRange]

/-- An aligned address inside the array names a word. -/
theorem isWord_of_inRange
    (aligned : addr.toNat % 4 = 0)
    (inside : inRange addr = true) :
    IsWord addr :=
  ⟨aligned, of_decide_eq_true inside⟩

/-- The address names a word of the array, or nothing inside it. -/
def Placed (addr : Bus32) : Prop :=
  inRange addr = true → IsWord addr

/-- Stores that are placed meet the word at their address. -/
theorem meets_iff
    (isWord : IsWord addr)
    (placed : Placed store.1) :
    Meets store addr ↔ store.1 = addr := by
  constructor
  · intro meets
    exact ((placed meets.1).index_inj isWord).mp meets.2
  · rintro rfl
    exact ⟨isWord.inRange, rfl⟩

end Memory

namespace MemoryMachine

/-- The machine starts with the memory that it is given. -/
def initial (memory : Memory) : MemoryMachine where
  front := .initial
  memory := memory

variable (word : Bus32 → Bus32) (machine : MemoryMachine)

/-- The next instruction is a load. -/
def Loads : Prop :=
  (machine.front.decoded word).wbOrigin = .mem

instance : Decidable (machine.Loads word) :=
  inferInstanceAs (Decidable (_ = _))

/-- What the next instruction writes to the memory, if it is a store. -/
def stored : Option Store :=
  if (machine.front.decoded word).storeToMem then
    some (machine.front.target word, (machine.front.input word).dataRs2)
  else
    none

/-- The value that the instruction leaves behind. -/
def result : Bus32 :=
  if machine.Loads word then
    machine.memory.readMem (machine.front.target word)
  else
    machine.front.result word

/-- The machine after the instruction. -/
def step : MemoryMachine where
  pc :=
    if machine.front.taken word then machine.front.target word
    else machine.pc + 4
  registers := fun register =>
    if machine.front.Writes word register then machine.result word
    else machine.registers register
  memory := machine.memory.perform (machine.stored word)

/-- What the instruction shows. -/
def commit : ArchitecturalCommit :=
  { machine.front.commit word with result := machine.result word }

/-- The machine after some instructions. -/
def after (count : Nat) : MemoryMachine :=
  (step word)^[count] machine

/-- What the first instructions of the execution show. -/
def execution (memory : Memory) (count : Nat) : List ArchitecturalCommit :=
  Clocked.trace (step word) (commit word) (initial memory) count

/-- None of the next instructions is a taken branch. -/
def Straight (count : Nat) : Prop :=
  Stepping.Straight (step word) (fun machine => machine.front.taken word)
    machine count

/-- The instruction writes the word at the address. -/
def Overwrites (addr : Bus32) : Prop :=
  ∃ store, machine.stored word = some store ∧ Memory.Meets store addr

variable {word machine} {count : Nat} {addr : Bus32}

@[simp] theorem after_zero : machine.after word 0 = machine :=
  rfl

/-- One more instruction is run at the end. -/
theorem after_succ (count : Nat) :
    machine.after word (count + 1) = (machine.after word count).step word :=
  Function.iterate_succ_apply' _ _ _

theorem Straight.of_le
    {index : Nat}
    (straight : machine.Straight word count)
    (shorter : index ≤ count) :
    machine.Straight word index :=
  Stepping.Straight.of_le straight shorter

/-- A straight piece of the execution visits consecutive instructions. -/
theorem Straight.pc_after (straight : machine.Straight word count) :
    (machine.after word count).pc = pcAfter machine.pc count := by
  induction count with
  | zero =>
      exact (pcAfter_zero machine.pc).symm
  | succ count inductionHypothesis =>
      have notTaken : (machine.after word count).front.taken word = false :=
        straight count (Nat.lt_succ_self count)
      rw [after_succ, step, notTaken, if_neg Bool.false_ne_true,
        inductionHypothesis (straight.of_le (Nat.le_succ count)),
        pcAfter_succ]

/-- A register as a cell of the machine. -/
def registerCell
    (word : Bus32 → Bus32)
    (register : RegAddr) :
    Stepping.Cell (step word) Bus32 where
  look machine := machine.registers register
  Writes machine := machine.front.Writes word register
  value machine := machine.result word
  kept _ silent := if_neg silent
  written _ writes := if_pos writes

/-- A word of the memory as a cell of the machine. -/
def wordCell
    (word : Bus32 → Bus32)
    (isWord : Memory.IsWord addr) :
    Stepping.Cell (step word) Bus32 where
  look machine := machine.memory.readMem addr
  Writes machine := machine.Overwrites word addr
  value machine := (machine.front.input word).dataRs2
  kept machine silent := by
    change (machine.memory.perform (machine.stored word)).readMem addr = _
    cases stored : machine.stored word with
    | none =>
        rfl
    | some store =>
        exact
          Memory.readMem_of_not_meets fun meets =>
            silent ⟨store, stored, meets⟩
  written machine writes := by
    obtain ⟨store, stored, meets⟩ := writes
    change (machine.memory.perform (machine.stored word)).readMem addr = _
    have data : store.2 = (machine.front.input word).dataRs2 := by
      rw [MemoryMachine.stored] at stored
      split at stored
      · rw [← Option.some.inj stored]
      · cases stored
    rw [stored, ← data]
    exact Memory.readMem_of_meets isWord meets

/-- Only a jump leaves the address behind it. -/
theorem jumps_of_pc4
    (isPc4 : (machine.front.decoded word).wbOrigin = .pc4) :
    (machine.front.decoded word).jumpKind = .jump := by
  by_cases isLoad : Word.opcode (word machine.pc) = Opcode.lw
  · have decoded :
        machine.front.decoded word =
          decoder machine.pc (word machine.pc) 0 0 :=
      rfl
    rw [decoded, Decoder.decoder_lw _ _ _ isLoad] at isPc4
    cases isPc4
  · by_cases isStore : Word.opcode (word machine.pc) = Opcode.sw
    · have decoded :
          machine.front.decoded word =
            decoder machine.pc (word machine.pc) 0 0 :=
        rfl
      rw [decoded, Decoder.decoder_sw _ _ _ isStore] at isPc4
      cases isPc4
    · have only : (machine.front.decoded word).RegisterOnly :=
        decoder_registerOnly isLoad isStore _ _ _
      rcases only.origin with isAlu | ⟨_, isJump⟩
      · rw [isAlu] at isPc4
        cases isPc4
      · exact isJump

/-- An instruction that is neither a load nor taken leaves the result of
execute. -/
theorem result_of_not_taken
    (noLoad : ¬ machine.Loads word)
    (notTaken : machine.front.taken word = false) :
    machine.result word = Exe.ownResult (machine.front.input word) := by
  rw [result, if_neg noLoad, SequentialMachine.result, if_neg]
  intro isPc4
  have kind : (machine.front.input word).instr.jumpKind = .jump :=
    jumps_of_pc4 isPc4
  rw [SequentialMachine.taken, Exe.takenBranch, kind] at notTaken
  cases notTaken

/-- Loads and stores compute their address with the arithmetic unit, and do
not branch. -/
theorem of_access
    (accesses :
      machine.Loads word ∨
        (machine.front.decoded word).storeToMem = true) :
    Exe.ownResult (machine.front.input word) = machine.front.target word ∧
      machine.front.taken word = false := by
  have shape : (machine.front.decoded word).Shape := decoder_shape _ _ _ _
  obtain ⟨notMul, noJump⟩ :
      (machine.front.decoded word).isMul = false ∧
        (machine.front.decoded word).jumpKind = .bnone := by
    rcases accesses with loads | stores
    · exact (shape.ofLoad loads).2
    · exact ⟨(shape.ofStore stores).2.1, (shape.ofStore stores).2.2.2⟩
  refine ⟨SequentialMachine.ownResult_of_not_mul notMul, ?_⟩
  have kind : (machine.front.input word).instr.jumpKind = .bnone := noJump
  rw [SequentialMachine.taken, Exe.takenBranch, kind]
  rfl

/-- A store writes its operand to its address. -/
theorem stored_of_store
    (stores : (machine.front.decoded word).storeToMem = true) :
    machine.stored word =
      some
        (machine.front.target word, (machine.front.input word).dataRs2) :=
  if_pos stores

end MemoryMachine

/-- An instruction that works on the first thirty-one registers only, the
memory operand of a store included. -/
def AccessWord (instr : Bus32) : Prop :=
  (decoder 0 instr 0 0).AvoidsLast ∧
    ((decoder 0 instr 0 0).storeToMem = true →
      (decoder 0 instr 0 0).addrRs2 ≠ 31)

instance (instr : Bus32) : Decidable (AccessWord instr) :=
  inferInstanceAs (Decidable (_ ∧ (_ → _)))

/-- All words of the program are such instructions. -/
def AccessProgram (word : Bus32 → Bus32) : Prop :=
  ∀ pc, AccessWord (word pc)

/-- This holds wherever the instruction is decoded. -/
theorem AccessProgram.avoidsLast
    {word : Bus32 → Bus32}
    (program : AccessProgram word)
    (pc : Bus32)
    (robIdx : RobIdx)
    (idDecode : Nat) :
    (decoder pc (word pc) robIdx idDecode).AvoidsLast ∧
      ((decoder pc (word pc) robIdx idDecode).storeToMem = true →
        (decoder pc (word pc) robIdx idDecode).addrRs2 ≠ 31) := by
  rw [decoder_relabelled pc (word pc) robIdx idDecode 0]
  exact program pc

end Tartaruga
