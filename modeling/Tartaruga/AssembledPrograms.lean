import Tartaruga.InstructionRefinement
import Tartaruga.SequentialRefinement

namespace Tartaruga

/-!
# Assembled programs

A memory that holds the words of a list of instructions, and what the machine
makes of it: the executions of the program.
-/

open Rv32 (Code Executes Program Instruction Mnemonic)

section Named

/-- The operands of a decoded word are registers that the instruction names,
and only multiplications go to the multiplier. -/
structure InstrData.Describes (data : InstrData) (code : Code) : Prop where
  rs1 : data.readsRs1 → data.addrRs1 ∈ 0 :: code.named
  rs2 : data.readsRs2 → data.addrRs2 ∈ 0 :: code.named
  rd : data.writeEnable = true → data.addrRd ∈ code.named
  stored : data.storeToMem = true → data.addrRs2 ∈ code.named
  isMul : data.isMul = true → code.multiplies = true

/-- An instruction that names other registers avoids the last one. -/
theorem InstrData.Describes.accessWord
    {word : Bus32}
    {code : Code}
    (describes : (decoder 0 word 0 0).Describes code)
    (avoids : 31 ∉ code.named) :
    AccessWord word := by
  have notLast :
      ∀ register ∈ 0 :: code.named, register ≠ 31 := by
    rintro register member rfl
    rcases List.mem_cons.mp member with isZero | member
    · revert isZero
      decide
    · exact avoids member
  refine
    ⟨⟨fun reads => notLast _ (describes.rs1 reads),
      fun reads => notLast _ (describes.rs2 reads), ?_⟩, ?_⟩
  · exact fun writes => notLast _ (List.mem_cons_of_mem _ (describes.rd writes))
  · exact fun stores =>
      notLast _ (List.mem_cons_of_mem _ (describes.stored stores))

/-- The word of an arithmetic instruction is decoded into its description. -/
theorem describes_arithmetic (instruction : Instruction) :
    (decoder 0 instruction.encode 0 0).Describes
      (Code.arithmetic instruction) := by
  cases instruction with
  | op operation rd rs1 rs2 =>
      have decoded :
          decoder 0 (Instruction.op operation rd rs1 rs2).encode 0 0 = _ :=
        Decoder.decoder_alu 0 0 0 (Word.opcode_registerWord _ _ _ _ _ _)
          (Word.func3_registerWord _ _ _ _ _ _)
          (Word.func7_registerWord _ _ _ _ _ _)
      rw [decoded]
      constructor <;>
        simp [Decoder.defaults, Code.named, Code.multiplies,
          Instruction.encode]
  | opImm operation rd rs1 imm =>
      have decoded :
          decoder 0 (Instruction.opImm operation rd rs1 imm).encode 0 0 =
            _ :=
        Decoder.decoder_aluI 0 0 0 (opcode_encode .i _ _)
          (Decoder.opAluI_immediate (Word.func3_encode_i _ _))
      rw [decoded]
      constructor <;>
        simp [Decoder.defaults, Decoder.aluIAssignments, Code.named,
          Instruction.encode]
  | shiftImm operation rd rs1 shamt =>
      have decoded :
          decoder 0 (Instruction.shiftImm operation rd rs1 shamt).encode 0
              0 =
            _ :=
        Decoder.decoder_aluI 0 0 0 (Word.opcode_registerWord _ _ _ _ _ _)
          (Decoder.opAluI_shift (Word.func3_registerWord _ _ _ _ _ _)
            (Word.func7_registerWord _ _ _ _ _ _))
      rw [decoded]
      constructor <;>
        simp [Decoder.defaults, Decoder.aluIAssignments, Code.named,
          Instruction.encode]
  | lui rd imm =>
      have decoded :
          decoder 0 (Instruction.lui rd imm).encode 0 0 = _ :=
        Decoder.decoder_lui 0 0 0 (opcode_encode .u _ _)
      rw [decoded]
      constructor <;>
        simp [Decoder.defaults, Code.named, Instruction.encode]
  | auipc rd imm =>
      have decoded :
          decoder 0 (Instruction.auipc rd imm).encode 0 0 = _ :=
        Decoder.decoder_auipc 0 0 0 (opcode_encode .u _ _)
      rw [decoded]
      constructor <;>
        simp [Decoder.defaults, Code.named, Instruction.encode]

/-- The word of every instruction is. -/
theorem describes_encode (code : Code) :
    (decoder 0 code.encode 0 0).Describes code := by
  cases code with
  | arithmetic instruction =>
      exact describes_arithmetic instruction
  | lw rd rs1 imm =>
      have decoded : decoder 0 (Code.lw rd rs1 imm).encode 0 0 = _ :=
        Decoder.decoder_lw 0 0 0 (opcode_encode .i _ _)
      rw [decoded]
      constructor <;> simp [Decoder.defaults, Code.named, Code.encode]
  | sw rs2 rs1 imm =>
      have decoded : decoder 0 (Code.sw rs2 rs1 imm).encode 0 0 = _ :=
        Decoder.decoder_sw 0 0 0 (opcode_encode .s _ _)
      rw [decoded]
      constructor <;> simp [Decoder.defaults, Code.named, Code.encode]
  | branch condition rs1 rs2 offset =>
      have decoded :
          decoder 0 (Code.branch condition rs1 rs2 offset).encode 0 0 = _ :=
        Decoder.decoder_branch 0 0 0 (opcode_encode .b _ _)
      have compares : jumpKindOf condition ≠ .bnone := by
        cases condition <;> decide
      rw [decoded]
      constructor <;>
        simp [Decoder.defaults, Code.named, Code.encode, branchKind_funct3,
          compares]
  | jal rd offset =>
      have decoded : decoder 0 (Code.jal rd offset).encode 0 0 = _ :=
        Decoder.decoder_jal 0 0 0 (opcode_encode .j _ _)
      rw [decoded]
      constructor <;> simp [Decoder.defaults, Code.named, Code.encode]
  | jalr rd rs1 imm =>
      have decoded : decoder 0 (Code.jalr rd rs1 imm).encode 0 0 = _ :=
        Decoder.decoder_jalr 0 0 0 (opcode_encode .i _ _)
      rw [decoded]
      constructor <;>
        simp [Decoder.defaults, Code.named, Code.encode, InstrData.readsRs2,
          JumpKind.compares]

/-- Only loads and stores have their opcodes. -/
theorem opcode_encode_of_not_accesses
    {code : Code}
    (noAccess : code.accesses = false) :
    Word.opcode code.encode ≠ Opcode.lw ∧
      Word.opcode code.encode ≠ Opcode.sw := by
  have opcode : Word.opcode code.encode = code.mnemonic.pattern.opcode :=
    opcode_of_encodes (encodes_code code)
  rw [opcode]
  cases code with
  | arithmetic instruction =>
      cases instruction <;>
        simp [Code.mnemonic, Instruction.mnemonic, Mnemonic.pattern,
          Opcode.lw, Opcode.sw]
  | lw rd rs1 imm =>
      cases noAccess
  | sw rs2 rs1 imm =>
      cases noAccess
  | branch condition rs1 rs2 offset =>
      simp [Code.mnemonic, Mnemonic.pattern, Opcode.lw, Opcode.sw]
  | jal rd offset =>
      simp [Code.mnemonic, Mnemonic.pattern, Opcode.lw, Opcode.sw]
  | jalr rd rs1 imm =>
      simp [Code.mnemonic, Mnemonic.pattern, Opcode.lw, Opcode.sw]

/-- The word of an instruction that neither loads nor stores nor names the last
register works on the first thirty-one registers. -/
theorem registerWord_encode
    {code : Code}
    (noAccess : code.accesses = false)
    (avoids : 31 ∉ code.named) :
    RegisterWord code.encode :=
  ⟨(opcode_encode_of_not_accesses noAccess).1,
    (opcode_encode_of_not_accesses noAccess).2,
    ((describes_encode code).accessWord avoids).1⟩

/-- A word that neither loads, stores, multiplies nor names the last
register. -/
def PlainWord (word : Bus32) : Prop :=
  RegisterWord word ∧ (decoder 0 word 0 0).isMul = false

instance (word : Bus32) : Decidable (PlainWord word) :=
  inferInstanceAs (Decidable (_ ∧ _))

/-- The word of an instruction that does none of this is one. -/
theorem plainWord_encode
    {code : Code}
    (noAccess : code.accesses = false)
    (noMul : code.multiplies = false)
    (avoids : 31 ∉ code.named) :
    PlainWord code.encode := by
  refine ⟨registerWord_encode noAccess avoids, ?_⟩
  by_contra isMul
  have multiplies :=
    (describes_encode code).isMul (Bool.not_eq_false _ ▸ isMul)
  rw [noMul] at multiplies
  cases multiplies

end Named

/-- The words hold a program. -/
def Assembled (program : Program) (word : Bus32 → Bus32) : Prop :=
  ∀ pc code, program pc = some code → word pc = code.encode

/-- Fetch reads at the address of a word. -/
theorem wordAligned_eq_self
    {pc : Bus32}
    (aligned : pc.toNat % 4 = 0) :
    wordAligned pc = pc := by
  apply BitVec.eq_of_toNat_eq
  simp only [wordAligned, BitFields.toNat_append_eq,
    BitFields.toNat_extractLsb'_eq, BitVec.toNat_ofNat]
  omega

/-- A memory that holds the words of a list of instructions holds its
program. -/
theorem assembled_ofList
    {codes : List Code}
    (fits : codes.length ≤ 2 ^ 28) :
    Assembled (Program.ofList codes)
      (Core.programWord (Memory.holding (codes.map Code.encode))) := by
  intro pc code held
  obtain ⟨index, found, rfl⟩ := Program.ofList_eq_some held
  have inside : index < 2 ^ 28 := by
    obtain ⟨short, _⟩ := List.getElem?_eq_some_iff.mp found
    exact Nat.lt_of_lt_of_le short fits
  have address :
      (BitVec.ofNat 32 (4 * index)).toNat = 4 * index := by
    rw [BitVec.toNat_ofNat]
    omega
  have aligned :
      wordAligned (BitVec.ofNat 32 (4 * index)) =
        BitVec.ofNat 32 (4 * index) :=
    wordAligned_eq_self (by omega)
  have inRange : Memory.inRange (BitVec.ofNat 32 (4 * index)) = true := by
    rw [Memory.inRange, address]
    exact decide_eq_true (by omega)
  have position :
      (Memory.index (BitVec.ofNat 32 (4 * index))).toNat = index := by
    rw [Memory.index, BitFields.toNat_extractLsb'_eq, address]
    omega
  rw [Core.programWord, aligned, Memory.readMem, if_pos inRange,
    Memory.holding, position, List.getD_eq_getElem?_getD, List.getElem?_map,
    found]
  rfl

/-- Wherever it stands, the instruction is within reach. -/
def AlwaysWithinReach : Code → Prop
  | .branch _ _ _ offset =>
      -2048 ≤ Code.branchOffset offset ∧ Code.branchOffset offset ≤ 2046
  | .jalr _ _ _ => False
  | _ => True

instance (code : Code) : Decidable (AlwaysWithinReach code) :=
  match code with
  | .arithmetic _ | .lw _ _ _ | .sw _ _ _ | .jal _ _ =>
      inferInstanceAs (Decidable True)
  | .branch _ _ _ _ => inferInstanceAs (Decidable (_ ∧ _))
  | .jalr _ _ _ => inferInstanceAs (Decidable False)

theorem AlwaysWithinReach.withinReach
    {code : Code}
    (always : AlwaysWithinReach code)
    (state : Rv32.State Memory) :
    WithinReach state code := by
  cases code with
  | branch condition rs1 rs2 offset =>
      exact fun _ => always
  | jalr rd rs1 imm =>
      exact always.elim
  | arithmetic instruction =>
      trivial
  | lw rd rs1 imm =>
      trivial
  | sw rs2 rs1 imm =>
      trivial
  | jal rd offset =>
      trivial

/-- It is enough to look at the instructions of a list. -/
theorem meets_withinReach
    {codes : List Code}
    (closed : (Program.ofList codes).Closed)
    (nonempty : codes ≠ [])
    (always : ∀ code ∈ codes, AlwaysWithinReach code)
    (memory : Memory) :
    (Program.ofList codes).Meets wordAccess (Rv32.State.start memory)
      WithinReach := by
  apply closed.meets
  · cases codes with
    | nil =>
        exact (nonempty rfl).elim
    | cons code codes =>
        simp [Program.ofList, Rv32.State.start]
  · intro pc code state held
    obtain ⟨index, found, _⟩ := Program.ofList_eq_some held
    exact (always code (List.mem_of_getElem? found)).withinReach state

section Executed

variable {word : Bus32 → Bus32} {program : Program} {memory : Memory}

/-- The machine executes an assembled program whose instructions are within
reach. -/
theorem MemoryMachine.executes
    (assembled : Assembled program word)
    (meets :
      program.Meets wordAccess (Rv32.State.start memory) WithinReach)
    (count : Nat) :
    Executes wordAccess program (Rv32.State.start memory)
      (Clocked.trace (step word) (retired word) (initial memory) count)
      ((initial memory).after word count).state := by
  induction count with
  | zero =>
      exact .start
  | succ count inductionHypothesis =>
      obtain ⟨code, held, withinReach⟩ := meets _ _ inductionHypothesis
      have encoded :
          word ((initial memory).after word count).pc = code.encode :=
        assembled _ _ held
      have hardwired :
          ((initial memory).after word count).state.Hardwired :=
        inductionHypothesis.hardwired rfl
      have effect :=
        effect_of_withinReach code encoded hardwired withinReach
      have onward := Executes.step inductionHypothesis held
      have shows :
          code.retired wordAccess ((initial memory).after word count).state =
            ((initial memory).after word count).retired word := by
        rw [retired, effect]
        rfl
      have reaches :
          code.execute wordAccess ((initial memory).after word count).state =
            ((initial memory).after word (count + 1)).state := by
        rw [after_succ, state_step, effect]
        rfl
      rw [shows, reaches] at onward
      rw [Clocked.trace, List.range_succ, List.map_append]
      exact onward

end Executed

end Tartaruga
