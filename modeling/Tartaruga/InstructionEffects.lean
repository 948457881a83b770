import Tartaruga.ControlTransfers
import Tartaruga.MemoryMachine
import Tartaruga.RiscvExecution

namespace Tartaruga

/-!
# The effect of an instruction

What the machine does with the word of an instruction, against what the
instruction set says: the register that is written, the word that is stored and
the jump.  Branches reach two kilobytes only, and an indirect jump goes to the
sum as it is.
-/

open Rv32 (Code Format Transfer)

namespace Word

section ImmediateWord

variable (fields : Rv32.Fields) (imm : Int)

@[simp] theorem func3_encode_s :
    Word.func3 (Format.s.encode fields imm) = fields.funct3 := by
  simp (disch := decide) only [Format.encode, Format.word, Word.func3,
    BitVec.extractLsb'_append_eq_of_le,
    BitVec.extractLsb'_append_eq_of_add_le]
  exact BitVec.extractLsb'_eq_self

@[simp] theorem rs1_encode_s :
    Word.rs1 (Format.s.encode fields imm) = fields.rs1 := by
  simp (disch := decide) only [Format.encode, Format.word, Word.rs1,
    BitVec.extractLsb'_append_eq_of_le,
    BitVec.extractLsb'_append_eq_of_add_le]
  exact BitVec.extractLsb'_eq_self

@[simp] theorem rs2_encode_s :
    Word.rs2 (Format.s.encode fields imm) = fields.rs2 := by
  simp (disch := decide) only [Format.encode, Format.word, Word.rs2,
    BitVec.extractLsb'_append_eq_of_le,
    BitVec.extractLsb'_append_eq_of_add_le]
  exact BitVec.extractLsb'_eq_self

@[simp] theorem func3_encode_b :
    Word.func3 (Format.b.encode fields imm) = fields.funct3 := by
  simp (disch := decide) only [Format.encode, Format.word, Word.func3,
    BitVec.extractLsb'_append_eq_of_le,
    BitVec.extractLsb'_append_eq_of_add_le]
  exact BitVec.extractLsb'_eq_self

@[simp] theorem rs1_encode_b :
    Word.rs1 (Format.b.encode fields imm) = fields.rs1 := by
  simp (disch := decide) only [Format.encode, Format.word, Word.rs1,
    BitVec.extractLsb'_append_eq_of_le,
    BitVec.extractLsb'_append_eq_of_add_le]
  exact BitVec.extractLsb'_eq_self

@[simp] theorem rs2_encode_b :
    Word.rs2 (Format.b.encode fields imm) = fields.rs2 := by
  simp (disch := decide) only [Format.encode, Format.word, Word.rs2,
    BitVec.extractLsb'_append_eq_of_le,
    BitVec.extractLsb'_append_eq_of_add_le]
  exact BitVec.extractLsb'_eq_self

@[simp] theorem rd_encode_j :
    Word.rd (Format.j.encode fields imm) = fields.rd := by
  simp (disch := decide) only [Format.encode, Format.word, Word.rd,
    BitVec.extractLsb'_append_eq_of_le,
    BitVec.extractLsb'_append_eq_of_add_le]
  exact BitVec.extractLsb'_eq_self

end ImmediateWord

end Word

/-- How instructions access the memory of the simulator. -/
def wordAccess : Rv32.WordAccess Memory where
  read := Memory.readMem
  write := Memory.writeMem

namespace MemoryMachine

/-- What the instruction set sees of the machine. -/
def state (machine : MemoryMachine) : Rv32.State Memory where
  pc := machine.pc
  registers := machine.registers
  memory := machine.memory

variable (word : Bus32 → Bus32) (machine : MemoryMachine)

/-- What the next instruction does. -/
def effect : Rv32.Effect where
  write :=
    if (machine.front.decoded word).writeEnable then
      some ((machine.front.decoded word).addrRd, machine.result word)
    else
      none
  store := machine.stored word
  jump :=
    if machine.front.taken word then some (machine.front.target word)
    else none

/-- A step of the machine has this effect. -/
theorem state_step :
    (machine.step word).state =
      machine.state.apply wordAccess (machine.effect word) := by
  apply Rv32.State.ext
  · change
      (if machine.front.taken word then machine.front.target word
        else machine.pc + 4) =
        Option.getD (machine.effect word).jump (machine.pc + 4)
    rw [effect]
    split <;> rfl
  · funext register
    change
      (if machine.front.Writes word register then machine.result word
        else machine.registers register) =
        Rv32.State.writeRegister machine.registers
          (machine.effect word).write register
    rw [effect]
    by_cases enabled : (machine.front.decoded word).writeEnable = true
    · rw [if_pos enabled]
      apply if_congr _ rfl rfl
      exact
        ⟨fun writes => ⟨writes.2.1.symm, writes.2.2⟩,
          fun written => ⟨enabled, written.1.symm, written.2⟩⟩
    · rw [if_neg enabled]
      exact if_neg fun writes => enabled writes.1
  · change machine.memory.perform (machine.stored word) = _
    simp only [Rv32.State.apply, effect]
    cases machine.stored word with
    | none => rfl
    | some store => rfl

end MemoryMachine

/-- The next instruction, done. -/
def MemoryMachine.retired
    (word : Bus32 → Bus32)
    (machine : MemoryMachine) :
    Rv32.Retired where
  pc := machine.pc
  effect := machine.effect word

/-- A branch that is taken is within two kilobytes, and an indirect jump goes
to an even sum. -/
def WithinReach (state : Rv32.State Memory) : Code → Prop
  | .branch condition rs1 rs2 offset =>
      condition.Holds (state.registers rs1) (state.registers rs2) →
      -2048 ≤ Code.branchOffset offset ∧ Code.branchOffset offset ≤ 2046
  | .jalr _ rs1 imm => (Code.sum state rs1 imm).getLsbD 0 = false
  | _ => True

namespace MemoryMachine

variable {word : Bus32 → Bus32} {machine : MemoryMachine}

/-- The effect of an instruction that computes a value. -/
theorem effect_of_computes
    {rd : RegAddr}
    {value : Bus32}
    (computes : (machine.front.input word).Computes rd value) :
    machine.effect word =
      { write := some (rd, value), store := none, jump := none } := by
  have notTaken : machine.front.taken word = false := by
    rw [SequentialMachine.taken, Exe.takenBranch, computes.jumpKind]
    rfl
  have noLoad : ¬machine.Loads word := by
    intro loads
    have isAlu : (machine.front.decoded word).wbOrigin = .alu :=
      computes.wbOrigin
    rw [Loads, isAlu] at loads
    cases loads
  have result : machine.result word = value :=
    (result_of_not_taken noLoad notTaken).trans computes.ownResult
  have writes : (machine.front.decoded word).writeEnable = true :=
    computes.writeEnable
  have addrRd : (machine.front.decoded word).addrRd = rd := computes.addrRd
  have noStore : (machine.front.decoded word).storeToMem = false :=
    computes.storeToMem
  apply Rv32.Effect.ext
  · simp [effect, writes, addrRd, result]
  · simp [effect, stored, noStore]
  · simp [effect, notTaken]

/-- The effect of a control transfer. -/
theorem effect_of_transfers
    {transfer : Transfer}
    {sum : Bus32}
    (transfers :
      (machine.front.input word).Transfers transfer (word machine.pc)
        machine.registers sum) :
    machine.effect word =
      { write :=
          if transfer.links then
            some (Word.rd (word machine.pc), machine.pc + 4)
          else
            none
        store := none
        jump :=
          if transfer.Taken
              (machine.registers (Word.rs1 (word machine.pc)))
              (machine.registers (Word.rs2 (word machine.pc))) then
            some sum
          else
            none } := by
  have taken := (branch_iff _ _ _).trans transfers.taken
  have writes : (machine.front.decoded word).writeEnable = transfer.links :=
    transfers.writeEnable
  have addrRd :
      (machine.front.decoded word).addrRd = Word.rd (word machine.pc) :=
    transfers.addrRd
  have origin :
      (machine.front.decoded word).wbOrigin =
        if transfer.links then .pc4 else .alu :=
    transfers.wbOrigin
  have noStore : (machine.front.decoded word).storeToMem = false :=
    transfers.storeToMem
  have notMul : (machine.front.decoded word).isMul = false := by
    have shape : (machine.front.decoded word).Shape := decoder_shape _ _ _ _
    have single :
        (machine.front.decoded word).exeStages = exeStagesDefault :=
      transfers.single
    rcases shape.stages with ⟨_, isMult⟩ | ⟨notMul, _⟩
    · rw [single] at isMult
      cases isMult
    · exact notMul
  have target : machine.front.target word = sum :=
    (SequentialMachine.ownResult_of_not_mul notMul).symm.trans
      transfers.ownResult
  apply Rv32.Effect.ext
  · cases links : transfer.links with
    | false =>
        rw [links] at writes
        simp [effect, writes]
    | true =>
        rw [links] at writes origin
        have noLoad : ¬machine.Loads word := by
          rw [Loads, origin]
          decide
        have link : machine.result word = machine.pc + 4 := by
          rw [result, if_neg noLoad, SequentialMachine.result, origin]
          rfl
        simp [effect, writes, addrRd, link]
  · simp [effect, stored, noStore]
  · rw [effect, target]
    exact if_congr taken rfl rfl

end MemoryMachine

end Tartaruga
