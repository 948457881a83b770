import Tartaruga.InstructionEffects

namespace Tartaruga

/-!
# Instructions are executed

A step of the machine on the word of an instruction is the instruction, unless
it is a branch beyond two kilobytes that is taken or an indirect jump to an odd
sum.  So are all steps of an execution.
-/

open Rv32 (Code Format Transfer Mnemonic)

namespace MemoryMachine

variable {word : Bus32 → Bus32} {machine : MemoryMachine}

/-- The effect of a word with the opcode of a load. -/
theorem effect_of_lw
    (isLoad : Word.opcode (word machine.pc) = Opcode.lw) :
    machine.effect word =
      { write :=
          some
            (Word.rd (word machine.pc),
              machine.memory.readMem
                (machine.registers (Word.rs1 (word machine.pc)) +
                  immediate (word machine.pc)))
        store := none
        jump := none } := by
  have decoded : machine.front.decoded word = _ :=
    Decoder.decoder_lw machine.pc 0 0 isLoad
  have loads : machine.Loads word := by
    rw [Loads, decoded]
  have target :
      machine.front.target word =
        machine.registers (Word.rs1 (word machine.pc)) +
          immediate (word machine.pc) := by
    simp only [SequentialMachine.target, SequentialMachine.input,
      DecodeToExe.ofRegfile, Decoder.decoder_lw machine.pc 0 0 isLoad]
    rfl
  have notTaken : machine.front.taken word = false :=
    (of_access (.inl loads)).2
  have result :
      machine.result word =
        machine.memory.readMem (machine.front.target word) :=
    if_pos loads
  apply Rv32.Effect.ext
  · rw [effect, result, target, decoded]
    rfl
  · rw [effect, stored, decoded]
    rfl
  · rw [effect, notTaken]
    rfl

/-- The effect of a word with the opcode of a store. -/
theorem effect_of_sw
    (isStore : Word.opcode (word machine.pc) = Opcode.sw) :
    machine.effect word =
      { write := none
        store :=
          some
            (machine.registers (Word.rs1 (word machine.pc)) +
                immediate (word machine.pc),
              machine.registers (Word.rs2 (word machine.pc)))
        jump := none } := by
  have decoded : machine.front.decoded word = _ :=
    Decoder.decoder_sw machine.pc 0 0 isStore
  have stores : (machine.front.decoded word).storeToMem = true := by
    rw [decoded]
  have notTaken : machine.front.taken word = false :=
    (of_access (.inr stores)).2
  apply Rv32.Effect.ext
  · rw [effect, decoded]
    rfl
  · rw [effect, stored_of_store stores]
    simp only [SequentialMachine.target, SequentialMachine.input,
      DecodeToExe.ofRegfile, Decoder.decoder_sw machine.pc 0 0 isStore]
    rfl
  · rw [effect, notTaken]
    rfl

end MemoryMachine

/-- Twice a twelve-bit offset fits a branch. -/
theorem representable_branchOffset (offset : BitVec 12) :
    Format.b.Representable (Code.branchOffset offset) := by
  have lower : -2 ^ (12 - 1) ≤ offset.toInt := BitVec.le_toInt offset
  have upper : offset.toInt < 2 ^ (12 - 1) := BitVec.toInt_lt
  simp only [Format.Representable, Code.branchOffset]
  omega

/-- Twice a twenty-bit offset fits a direct jump. -/
theorem representable_jumpOffset (offset : BitVec 20) :
    Format.j.Representable (Code.jumpOffset offset) := by
  have lower : -2 ^ (20 - 1) ≤ offset.toInt := BitVec.le_toInt offset
  have upper : offset.toInt < 2 ^ (20 - 1) := BitVec.toInt_lt
  simp only [Format.Representable, Code.jumpOffset]
  omega

/-- The word of an instruction encodes it. -/
theorem encodes_code (code : Code) : code.mnemonic.Encodes code.encode := by
  cases code with
  | arithmetic instruction =>
      exact encodes_encode instruction
  | lw rd rs1 imm =>
      refine ⟨opcode_encode .i _ _, ?_, nofun⟩
      rintro _ ⟨⟩
      exact Word.func3_encode_i _ _
  | sw rs2 rs1 imm =>
      refine ⟨opcode_encode .s _ _, ?_, nofun⟩
      rintro _ ⟨⟩
      exact Word.func3_encode_s _ _
  | branch condition rs1 rs2 offset =>
      refine ⟨opcode_encode .b _ _, ?_, nofun⟩
      rintro _ ⟨⟩
      exact Word.func3_encode_b _ _
  | jal rd offset =>
      exact ⟨opcode_encode .j _ _, nofun, nofun⟩
  | jalr rd rs1 imm =>
      refine ⟨opcode_encode .i _ _, ?_, nofun⟩
      rintro _ ⟨⟩
      exact Word.func3_encode_i _ _

namespace MemoryMachine

variable {word : Bus32 → Bus32} {machine : MemoryMachine}

section Encoded

/-- Arithmetic instructions have their effect. -/
theorem effect_arithmetic
    {instruction : Rv32.Instruction}
    (encoded : word machine.pc = (Code.arithmetic instruction).encode)
    (hardwired : machine.state.Hardwired) :
    machine.effect word =
      (Code.arithmetic instruction).effect wordAccess machine.state := by
  apply effect_of_computes
  rw [SequentialMachine.input, encoded]
  exact
    computes_encode machine.pc 0 0 machine.registers instruction hardwired

/-- Loads have their effect. -/
theorem effect_lw
    {rd rs1 : RegAddr}
    {imm : BitVec 12}
    (encoded : word machine.pc = (Code.lw rd rs1 imm).encode) :
    machine.effect word =
      (Code.lw rd rs1 imm).effect wordAccess machine.state := by
  have isLoad : Word.opcode (word machine.pc) = Opcode.lw := by
    rw [encoded]
    exact opcode_encode .i _ _
  rw [effect_of_lw isLoad, encoded,
    Code.encode, Word.rd_encode_i, Word.rs1_encode_i,
    immediate_encode_i (by simp [Format.opcodes])
      (representable_toInt imm)]
  rfl

/-- Stores have their effect. -/
theorem effect_sw
    {rs2 rs1 : RegAddr}
    {imm : BitVec 12}
    (encoded : word machine.pc = (Code.sw rs2 rs1 imm).encode) :
    machine.effect word =
      (Code.sw rs2 rs1 imm).effect wordAccess machine.state := by
  have representable : Format.s.Representable imm.toInt :=
    representable_toInt imm
  have isStore : Word.opcode (word machine.pc) = Opcode.sw := by
    rw [encoded]
    exact opcode_encode .s _ _
  rw [effect_of_sw isStore, encoded,
    Code.encode, Word.rs1_encode_s, Word.rs2_encode_s,
    immediate_encode_s (by simp [Format.opcodes]) representable]
  rfl

/-- Direct jumps have their effect. -/
theorem effect_jal
    {rd : RegAddr}
    {offset : BitVec 20}
    (encoded : word machine.pc = (Code.jal rd offset).encode) :
    machine.effect word =
      (Code.jal rd offset).effect wordAccess machine.state := by
  have encodes : (Mnemonic.transfer .jal).Encodes (word machine.pc) := by
    rw [encoded]
    exact encodes_code (.jal rd offset)
  rw [effect_of_transfers (transfers_jal machine.pc 0 0 _ encodes), encoded,
    Code.encode, Word.rd_encode_j,
    immediate_encode_j (by simp [Format.opcodes])
      (representable_jumpOffset offset)]
  simp [Transfer.links, Transfer.Taken, Code.effect, state]

/-- Indirect jumps write their link and go to the sum. -/
theorem effect_jalr
    {rd rs1 : RegAddr}
    {imm : BitVec 12}
    (encoded : word machine.pc = (Code.jalr rd rs1 imm).encode) :
    machine.effect word =
      { write := some (rd, machine.pc + 4)
        store := none
        jump := some (Code.sum machine.state rs1 imm) } := by
  have encodes : (Mnemonic.transfer .jalr).Encodes (word machine.pc) := by
    rw [encoded]
    exact encodes_code (.jalr rd rs1 imm)
  rw [effect_of_transfers (transfers_jalr machine.pc 0 0 _ encodes), encoded,
    Code.encode, Word.rd_encode_i, Word.rs1_encode_i,
    immediate_encode_i (by simp [Format.opcodes]) (representable_toInt imm)]
  simp [Transfer.links, Transfer.Taken, Code.sum, state]

/-- Branches go where the immediate generator says. -/
theorem effect_branch
    {condition : Rv32.BranchCondition}
    {rs1 rs2 : RegAddr}
    {offset : BitVec 12}
    (encoded :
      word machine.pc = (Code.branch condition rs1 rs2 offset).encode) :
    machine.effect word =
      { write := none
        store := none
        jump :=
          if condition.Holds (machine.registers rs1)
              (machine.registers rs2) then
            some
              (machine.pc +
                immediate (Code.branch condition rs1 rs2 offset).encode)
          else
            none } := by
  have encodes :
      (Mnemonic.transfer (.branch condition)).Encodes (word machine.pc) := by
    rw [encoded]
    exact encodes_code (.branch condition rs1 rs2 offset)
  rw [effect_of_transfers (transfers_branch machine.pc 0 0 _ encodes),
    encoded, Code.encode, Word.rs1_encode_b, Word.rs2_encode_b]
  exact Rv32.Effect.ext rfl rfl (if_congr Iff.rfl rfl rfl)

/-- The immediate of a branch is its offset within two kilobytes only. -/
theorem immediate_branch_iff
    {condition : Rv32.BranchCondition}
    {rs1 rs2 : RegAddr}
    {offset : BitVec 12} :
    immediate (Code.branch condition rs1 rs2 offset).encode =
        BitVec.ofInt 32 (Code.branchOffset offset) ↔
      -2048 ≤ Code.branchOffset offset ∧ Code.branchOffset offset ≤ 2046 :=
  immediate_encode_b (by simp [Format.opcodes])
    (representable_branchOffset offset)

end Encoded

/-- Every instruction within reach has its effect. -/
theorem effect_of_withinReach
    (code : Code)
    (encoded : word machine.pc = code.encode)
    (hardwired : machine.state.Hardwired)
    (withinReach : WithinReach machine.state code) :
    machine.effect word = code.effect wordAccess machine.state := by
  cases code with
  | arithmetic instruction =>
      exact effect_arithmetic encoded hardwired
  | lw rd rs1 imm =>
      exact effect_lw encoded
  | sw rs2 rs1 imm =>
      exact effect_sw encoded
  | branch condition rs1 rs2 offset =>
      rw [effect_branch encoded, Code.effect]
      by_cases holds :
          condition.Holds (machine.registers rs1) (machine.registers rs2)
      · rw [immediate_branch_iff.mpr (withinReach holds)]
        rfl
      · rw [if_neg holds]
        exact congrArg _ (if_neg holds).symm
  | jal rd offset =>
      exact effect_jal encoded
  | jalr rd rs1 imm =>
      have toSum :
          Transfer.target machine.pc (machine.registers rs1)
              (BitVec.ofInt 32 imm.toInt) .jalr =
            Code.sum machine.state rs1 imm :=
        (Transfer.target_jalr_iff _ _ _).mpr withinReach
      rw [effect_jalr encoded, ← toSum]
      rfl

/-- An instruction that leads to the right address is within reach. -/
theorem withinReach_of_pc
    (code : Code)
    (encoded : word machine.pc = code.encode)
    (samePc :
      (machine.step word).state.pc =
        (code.execute wordAccess machine.state).pc) :
    WithinReach machine.state code := by
  rw [state_step] at samePc
  cases code with
  | arithmetic instruction =>
      trivial
  | lw rd rs1 imm =>
      trivial
  | sw rs2 rs1 imm =>
      trivial
  | branch condition rs1 rs2 offset =>
      intro holds
      have taken :
          condition.Holds (machine.registers rs1) (machine.registers rs2) :=
        holds
      rw [effect_branch encoded, if_pos taken] at samePc
      have target :
          machine.pc +
              immediate (Code.branch condition rs1 rs2 offset).encode =
            Option.getD
              (if condition.Holds (machine.state.registers rs1)
                  (machine.state.registers rs2) then
                some
                  (machine.pc +
                    BitVec.ofInt 32 (Code.branchOffset offset))
              else
                none)
              (machine.pc + 4) :=
        samePc
      rw [if_pos holds, Option.getD_some] at target
      exact immediate_branch_iff.mp (BitVec.add_right_inj _ |>.mp target)
  | jal rd offset =>
      trivial
  | jalr rd rs1 imm =>
      rw [effect_jalr encoded] at samePc
      exact (Transfer.target_jalr_iff machine.pc _ _).mp samePc.symm

/-- A machine at address 64 with 99 in x2. -/
def midway : MemoryMachine where
  front := { pc := 64, registers := Function.update (fun _ => 0) 2 99 }
  memory := fun _ => 0

end MemoryMachine

end Tartaruga
