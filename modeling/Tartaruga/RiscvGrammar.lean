import Tartaruga.RiscvArithmetic

namespace Rv32

/-!
# Control transfers, and the words of a subset

The branches and jumps of the RV32I base set, and the words that encode an
instruction of the subset: the arithmetic instructions, word loads and stores,
and the control transfers.
-/

/-- Conditions of a branch. -/
inductive BranchCondition where
  | beq
  | bne
  | blt
  | bge
  | bltu
  | bgeu
  deriving Repr, DecidableEq

namespace BranchCondition

/-- The condition on the two registers, as signed or unsigned integers. -/
def Holds (left right : BitVec 32) : BranchCondition → Prop
  | .beq => left = right
  | .bne => left ≠ right
  | .blt => left.toInt < right.toInt
  | .bge => right.toInt ≤ left.toInt
  | .bltu => left.toNat < right.toNat
  | .bgeu => right.toNat ≤ left.toNat

/-- The minor opcode. -/
def funct3 : BranchCondition → BitVec 3
  | .beq => 0b000
  | .bne => 0b001
  | .blt => 0b100
  | .bge => 0b101
  | .bltu => 0b110
  | .bgeu => 0b111

end BranchCondition

/-- Control transfers. -/
inductive Transfer where
  | branch (condition : BranchCondition)
  | jal
  | jalr
  deriving Repr, DecidableEq

namespace Transfer

/-- The transfer is taken. -/
def Taken (left right : BitVec 32) : Transfer → Prop
  | .branch condition => condition.Holds left right
  | .jal | .jalr => True

/-- Where a taken transfer goes.  An indirect jump clears bit 0. -/
def target (pc base offset : BitVec 32) : Transfer → BitVec 32
  | .branch _ | .jal => pc + offset
  | .jalr => (base + offset) &&& ~~~1#32

/-- The transfer writes the address of the next instruction to a register. -/
def links : Transfer → Bool
  | .branch _ => false
  | .jal | .jalr => true

/-- An indirect jump to an even sum goes to the sum itself. -/
theorem target_jalr_iff (pc base offset : BitVec 32) :
    target pc base offset .jalr = base + offset ↔
      (base + offset).getLsbD 0 = false := by
  have low :
      ∀ bit, (target pc base offset .jalr).getLsbD bit =
        ((base + offset).getLsbD bit && (decide (bit < 32) && bit != 0)) := by
    intro bit
    simp only [target, BitVec.getLsbD_and, BitVec.getLsbD_not,
      BitVec.getLsbD_one]
    cases bit <;> simp
  constructor
  · intro unchanged
    rw [← unchanged, low]
    simp
  · intro even
    apply BitVec.eq_of_getLsbD_eq
    intro bit inRange
    rw [low]
    cases bit with
    | zero => simp only [even, Bool.false_and]
    | succ bit => simp [inRange]

end Transfer

/-- The instructions of the subset. -/
inductive Mnemonic where
  | op (operation : Operation)
  | opImm (operation : ImmediateOperation)
  | shiftImm (operation : ShiftOperation)
  | lui
  | auipc
  | lw
  | sw
  | transfer (transfer : Transfer)
  deriving Repr, DecidableEq

/-- The bits of a word that an encoding fixes. -/
structure Pattern where
  opcode : BitVec 7
  funct3 : Option (BitVec 3)
  funct7 : Option (BitVec 7)
  deriving Repr, DecidableEq

namespace Pattern

/-- The word has the fixed bits. -/
def Matches (pattern : Pattern) (word : BitVec 32) : Prop :=
  word.extractLsb' 0 7 = pattern.opcode ∧
    (∀ funct3 ∈ pattern.funct3, word.extractLsb' 12 3 = funct3) ∧
    ∀ funct7 ∈ pattern.funct7, word.extractLsb' 25 7 = funct7

instance (pattern : Pattern) (word : BitVec 32) :
    Decidable (pattern.Matches word) :=
  inferInstanceAs (Decidable (_ ∧ _ ∧ _))

end Pattern

namespace Mnemonic

/-- The encoding of an instruction. -/
def pattern : Mnemonic → Pattern
  | .op operation =>
      ⟨0b0110011, some operation.funct3, some operation.funct7⟩
  | .opImm operation => ⟨0b0010011, some operation.operation.funct3, none⟩
  | .shiftImm operation =>
      ⟨0b0010011, some operation.operation.funct3,
        some operation.operation.funct7⟩
  | .lui => ⟨0b0110111, none, none⟩
  | .auipc => ⟨0b0010111, none, none⟩
  | .lw => ⟨0b0000011, some 0b010, none⟩
  | .sw => ⟨0b0100011, some 0b010, none⟩
  | .transfer (.branch condition) => ⟨0b1100011, some condition.funct3, none⟩
  | .transfer .jal => ⟨0b1101111, none, none⟩
  | .transfer .jalr => ⟨0b1100111, some 0b000, none⟩

/-- The word encodes the instruction. -/
def Encodes (mnemonic : Mnemonic) (word : BitVec 32) : Prop :=
  mnemonic.pattern.Matches word

instance (mnemonic : Mnemonic) (word : BitVec 32) :
    Decidable (mnemonic.Encodes word) :=
  inferInstanceAs (Decidable (mnemonic.pattern.Matches word))

/-- The instruction reads the register in its first source field. -/
def readsRs1 : Mnemonic → Bool
  | .lui | .auipc | .transfer .jal => false
  | _ => true

/-- The instruction reads the register in its second source field. -/
def readsRs2 : Mnemonic → Bool
  | .op _ | .sw | .transfer (.branch _) => true
  | _ => false

end Mnemonic

/-- The instructions of the subset, in a list. -/
def Mnemonic.all : List Mnemonic :=
  [.op .add, .op .sub, .op .sll, .op .slt, .op .sltu, .op .xor, .op .srl,
    .op .sra, .op .or, .op .and, .op .mul,
    .opImm .addi, .opImm .slti, .opImm .sltiu, .opImm .xori, .opImm .ori,
    .opImm .andi,
    .shiftImm .slli, .shiftImm .srli, .shiftImm .srai,
    .lui, .auipc, .lw, .sw,
    .transfer (.branch .beq), .transfer (.branch .bne),
    .transfer (.branch .blt), .transfer (.branch .bge),
    .transfer (.branch .bltu), .transfer (.branch .bgeu),
    .transfer .jal, .transfer .jalr]

/-- The list is complete. -/
theorem Mnemonic.mem_all (mnemonic : Mnemonic) : mnemonic ∈ all := by
  cases mnemonic with
  | op operation => cases operation <;> decide
  | opImm operation => cases operation <;> decide
  | shiftImm operation => cases operation <;> decide
  | transfer transfer =>
      cases transfer with
      | branch condition => cases condition <;> decide
      | jal => decide
      | jalr => decide
  | lui => decide
  | auipc => decide
  | lw => decide
  | sw => decide

/-- The word encodes no instruction of the subset. -/
def Unsupported (word : BitVec 32) : Prop :=
  ∀ mnemonic : Mnemonic, ¬mnemonic.Encodes word

/-- It is enough to try the instructions one after the other. -/
theorem unsupported_iff_all (word : BitVec 32) :
    Unsupported word ↔ ∀ mnemonic ∈ Mnemonic.all, ¬mnemonic.Encodes word :=
  ⟨fun unsupported mnemonic _ => unsupported mnemonic,
    fun none mnemonic => none mnemonic mnemonic.mem_all⟩

instance (word : BitVec 32) : Decidable (Unsupported word) :=
  decidable_of_iff' _ (unsupported_iff_all word)

namespace Instruction

/-- The name of an arithmetic instruction. -/
def mnemonic : Instruction → Mnemonic
  | .op operation _ _ _ => .op operation
  | .opImm operation _ _ _ => .opImm operation
  | .shiftImm operation _ _ _ => .shiftImm operation
  | .lui _ _ => .lui
  | .auipc _ _ => .auipc

end Instruction

end Rv32
