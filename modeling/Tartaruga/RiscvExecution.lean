import Tartaruga.RiscvGrammar

namespace Rv32

/-!
# Execution of the subset

Instructions with their operands, what each of them does to the program
counter, the registers and the memory, and the executions of a program.  How
the memory reads and writes a word is left to the memory.
-/

instance (condition : BranchCondition) (left right : BitVec 32) :
    Decidable (condition.Holds left right) :=
  match condition with
  | .beq => inferInstanceAs (Decidable (left = right))
  | .bne => inferInstanceAs (Decidable (left ≠ right))
  | .blt => inferInstanceAs (Decidable (left.toInt < right.toInt))
  | .bge => inferInstanceAs (Decidable (right.toInt ≤ left.toInt))
  | .bltu => inferInstanceAs (Decidable (left.toNat < right.toNat))
  | .bgeu => inferInstanceAs (Decidable (right.toNat ≤ left.toNat))

instance (transfer : Transfer) (left right : BitVec 32) :
    Decidable (transfer.Taken left right) :=
  match transfer with
  | .branch condition => inferInstanceAs (Decidable (condition.Holds _ _))
  | .jal | .jalr => inferInstanceAs (Decidable True)

/-- An instruction with its operands.  Offsets of branches and direct jumps
count pairs of bytes. -/
inductive Code where
  | arithmetic (instruction : Instruction)
  | lw (rd rs1 : BitVec 5) (imm : BitVec 12)
  | sw (rs2 rs1 : BitVec 5) (imm : BitVec 12)
  | branch (condition : BranchCondition) (rs1 rs2 : BitVec 5)
      (offset : BitVec 12)
  | jal (rd : BitVec 5) (offset : BitVec 20)
  | jalr (rd rs1 : BitVec 5) (imm : BitVec 12)
  deriving Repr, DecidableEq

/-- How a memory reads and writes the word at an address. -/
structure WordAccess (Memory : Type) where
  read : Memory → BitVec 32 → BitVec 32
  write : Memory → BitVec 32 → BitVec 32 → Memory

/-- The state between two instructions. -/
@[ext] structure State (Memory : Type) where
  pc : BitVec 32
  registers : BitVec 5 → BitVec 32
  memory : Memory

/-- What an instruction does: the register it writes, the word it stores, and
where it jumps. -/
@[ext] structure Effect where
  write : Option (BitVec 5 × BitVec 32)
  store : Option (BitVec 32 × BitVec 32)
  jump : Option (BitVec 32)
  deriving DecidableEq

/-- An instruction that is done: where it stood, and what it did. -/
@[ext] structure Retired where
  pc : BitVec 32
  effect : Effect
  deriving DecidableEq

namespace State

variable {Memory : Type}

/-- The registers after a write.  Register 0 cannot be written. -/
def writeRegister
    (registers : BitVec 5 → BitVec 32) :
    Option (BitVec 5 × BitVec 32) → BitVec 5 → BitVec 32
  | some (rd, value) =>
      fun register =>
        if register = rd ∧ register ≠ 0 then value else registers register
  | none => registers

/-- The state after an effect. -/
def apply
    (access : WordAccess Memory)
    (state : State Memory)
    (effect : Effect) :
    State Memory where
  pc := effect.jump.getD (state.pc + 4)
  registers := writeRegister state.registers effect.write
  memory :=
    match effect.store with
    | some (addr, data) => access.write state.memory addr data
    | none => state.memory

/-- Programs start at address zero with all registers zero. -/
def start (memory : Memory) : State Memory where
  pc := 0
  registers := fun _ => 0
  memory := memory

/-- Register 0 holds zero. -/
def Hardwired (state : State Memory) : Prop :=
  state.registers 0 = 0

/-- No effect writes register 0. -/
theorem Hardwired.apply
    {state : State Memory}
    (hardwired : state.Hardwired)
    (access : WordAccess Memory)
    (effect : Effect) :
    (state.apply access effect).Hardwired := by
  change writeRegister state.registers effect.write 0 = 0
  cases effect.write with
  | none =>
      exact hardwired
  | some write =>
      have notWritten : ¬((0 : BitVec 5) = write.1 ∧ (0 : BitVec 5) ≠ 0) :=
        fun written => written.2 rfl
      exact (if_neg notWritten).trans hardwired

end State

namespace Code

/-- The bytes between a branch and its target. -/
def branchOffset (offset : BitVec 12) : Int :=
  offset.toInt * 2

/-- The bytes between a direct jump and its target. -/
def jumpOffset (offset : BitVec 20) : Int :=
  offset.toInt * 2

/-- The word of an instruction. -/
def encode : Code → BitVec 32
  | .arithmetic instruction => instruction.encode
  | .lw rd rs1 imm =>
      Format.i.encode
        { opcode := 0b0000011, rd := rd, funct3 := 0b010, rs1 := rs1
          rs2 := 0 }
        imm.toInt
  | .sw rs2 rs1 imm =>
      Format.s.encode
        { opcode := 0b0100011, rd := 0, funct3 := 0b010, rs1 := rs1
          rs2 := rs2 }
        imm.toInt
  | .branch condition rs1 rs2 offset =>
      Format.b.encode
        { opcode := 0b1100011, rd := 0, funct3 := condition.funct3
          rs1 := rs1, rs2 := rs2 }
        (branchOffset offset)
  | .jal rd offset =>
      Format.j.encode
        { opcode := 0b1101111, rd := rd, funct3 := 0, rs1 := 0, rs2 := 0 }
        (jumpOffset offset)
  | .jalr rd rs1 imm =>
      Format.i.encode
        { opcode := 0b1100111, rd := rd, funct3 := 0b000, rs1 := rs1
          rs2 := 0 }
        imm.toInt

/-- The name of an instruction. -/
def mnemonic : Code → Mnemonic
  | .arithmetic instruction => instruction.mnemonic
  | .lw _ _ _ => .lw
  | .sw _ _ _ => .sw
  | .branch condition _ _ _ => .transfer (.branch condition)
  | .jal _ _ => .transfer .jal
  | .jalr _ _ _ => .transfer .jalr

/-- The registers that an instruction names. -/
def named : Code → List (BitVec 5)
  | .arithmetic (.op _ rd rs1 rs2) => [rd, rs1, rs2]
  | .arithmetic (.opImm _ rd rs1 _) => [rd, rs1]
  | .arithmetic (.shiftImm _ rd rs1 _) => [rd, rs1]
  | .arithmetic (.lui rd _) | .arithmetic (.auipc rd _) => [rd]
  | .lw rd rs1 _ => [rd, rs1]
  | .sw rs2 rs1 _ => [rs1, rs2]
  | .branch _ rs1 rs2 _ => [rs1, rs2]
  | .jal rd _ => [rd]
  | .jalr rd rs1 _ => [rd, rs1]

/-- The instruction loads or stores. -/
def accesses : Code → Bool
  | .lw _ _ _ | .sw _ _ _ => true
  | _ => false

/-- The instruction multiplies. -/
def multiplies : Code → Bool
  | .arithmetic (.op operation _ _ _) => decide (operation = .mul)
  | _ => false

variable {Memory : Type} (access : WordAccess Memory) (state : State Memory)

/-- The sum of a register and a twelve-bit immediate. -/
def sum (state : State Memory) (rs1 : BitVec 5) (imm : BitVec 12) :
    BitVec 32 :=
  state.registers rs1 + BitVec.ofInt 32 imm.toInt

/-- What an instruction does in a state. -/
def effect : Code → Effect
  | .arithmetic instruction =>
      { write :=
          some (instruction.rd, instruction.result state.pc state.registers)
        store := none
        jump := none }
  | .lw rd rs1 imm =>
      { write := some (rd, access.read state.memory (sum state rs1 imm))
        store := none
        jump := none }
  | .sw rs2 rs1 imm =>
      { write := none
        store := some (sum state rs1 imm, state.registers rs2)
        jump := none }
  | .branch condition rs1 rs2 offset =>
      { write := none
        store := none
        jump :=
          if condition.Holds (state.registers rs1) (state.registers rs2) then
            some (state.pc + BitVec.ofInt 32 (branchOffset offset))
          else
            none }
  | .jal rd offset =>
      { write := some (rd, state.pc + 4)
        store := none
        jump := some (state.pc + BitVec.ofInt 32 (jumpOffset offset)) }
  | .jalr rd rs1 imm =>
      { write := some (rd, state.pc + 4)
        store := none
        jump :=
          some
            (Transfer.target state.pc (state.registers rs1)
              (BitVec.ofInt 32 imm.toInt) .jalr) }

/-- The state after an instruction. -/
def execute (code : Code) : State Memory :=
  state.apply access (code.effect access state)

/-- The instruction, done in a state. -/
def retired (code : Code) : Retired where
  pc := state.pc
  effect := code.effect access state

end Code

/-- A program has an instruction at some addresses. -/
abbrev Program := BitVec 32 → Option Code

/-- The executions of a program: its first instructions, and the state after
them. -/
inductive Executes
    {Memory : Type}
    (access : WordAccess Memory)
    (program : Program)
    (start : State Memory) :
    List Retired → State Memory → Prop
  | start : Executes access program start [] start
  | step
      {events : List Retired}
      {state : State Memory}
      {code : Code}
      (executed : Executes access program start events state)
      (held : program state.pc = some code) :
      Executes access program start
        (events ++ [code.retired access state]) (code.execute access state)

namespace Executes

variable {Memory : Type} {access : WordAccess Memory} {program : Program}
  {start state other : State Memory} {events : List Retired}

/-- Register 0 holds zero all the time. -/
theorem hardwired
    (executed : Executes access program start events state)
    (hardwiredStart : start.Hardwired) :
    state.Hardwired := by
  induction executed with
  | start =>
      exact hardwiredStart
  | step executed held inductionHypothesis =>
      exact inductionHypothesis.apply access _

end Executes

namespace Program

/-- The program of a list of instructions, from address 0 on. -/
def ofList (codes : List Code) : Program :=
  fun pc => if pc.toNat % 4 = 0 then codes[pc.toNat / 4]? else none

/-- The program has an instruction wherever control goes after the one at the
address.  Indirect jumps may go anywhere. -/
def GoesOn (program : Program) (pc : BitVec 32) : Code → Prop
  | .branch _ _ _ offset =>
      (program (pc + 4)).isSome = true ∧
        (program
            (pc + BitVec.ofInt 32 (Code.branchOffset offset))).isSome =
          true
  | .jal _ offset =>
      (program (pc + BitVec.ofInt 32 (Code.jumpOffset offset))).isSome = true
  | .jalr _ _ _ => False
  | _ => (program (pc + 4)).isSome = true

instance (program : Program) (pc : BitVec 32) (code : Code) :
    Decidable (program.GoesOn pc code) :=
  match code with
  | .arithmetic _ | .lw _ _ _ | .sw _ _ _ | .jal _ _ =>
      inferInstanceAs (Decidable (_ = _))
  | .branch _ _ _ _ => inferInstanceAs (Decidable (_ ∧ _))
  | .jalr _ _ _ => inferInstanceAs (Decidable False)

/-- Control never leaves the program. -/
def Closed (program : Program) : Prop :=
  ∀ pc code, program pc = some code → program.GoesOn pc code

variable {program : Program} {Memory : Type} {access : WordAccess Memory}
  {start state : State Memory} {events : List Retired}

/-- After an instruction of a closed program there is another one. -/
theorem GoesOn.next
    {code : Code}
    (goesOn : program.GoesOn state.pc code) :
    (program (code.execute access state).pc).isSome = true := by
  cases code with
  | arithmetic instruction =>
      exact goesOn
  | lw rd rs1 imm =>
      exact goesOn
  | sw rs2 rs1 imm =>
      exact goesOn
  | branch condition rs1 rs2 offset =>
      simp only [Code.execute, State.apply, Code.effect]
      split
      · exact goesOn.2
      · exact goesOn.1
  | jal rd offset =>
      exact goesOn
  | jalr rd rs1 imm =>
      exact goesOn.elim

/-- A closed program never runs out of instructions. -/
theorem Closed.isSome
    (closed : program.Closed)
    (entry : (program start.pc).isSome = true)
    (executed : Executes access program start events state) :
    (program state.pc).isSome = true := by
  induction executed with
  | start =>
      exact entry
  | step executed held inductionHypothesis =>
      exact (closed _ _ held).next

/-- Every instruction that an execution comes to meets a condition. -/
def Meets
    (access : WordAccess Memory)
    (program : Program)
    (start : State Memory)
    (condition : State Memory → Code → Prop) :
    Prop :=
  ∀ events state,
    Executes access program start events state →
    ∃ code, program state.pc = some code ∧ condition state code

/-- In a closed program it is enough that all instructions meet it. -/
theorem Closed.meets
    {condition : State Memory → Code → Prop}
    (closed : program.Closed)
    (entry : (program start.pc).isSome = true)
    (everywhere :
      ∀ pc code state, program pc = some code → condition state code) :
    program.Meets access start condition := by
  intro events state executed
  obtain ⟨code, held⟩ :=
    Option.isSome_iff_exists.mp (closed.isSome entry executed)
  exact ⟨code, held, everywhere _ _ _ held⟩

/-- The addresses of a list of instructions. -/
theorem ofList_eq_some
    {codes : List Code}
    {pc : BitVec 32}
    {code : Code}
    (held : ofList codes pc = some code) :
    ∃ index : Nat,
      codes[index]? = some code ∧ pc = BitVec.ofNat 32 (4 * index) := by
  rw [ofList] at held
  split at held
  · rename_i aligned
    refine ⟨pc.toNat / 4, held, ?_⟩
    rw [Nat.mul_div_cancel' (Nat.dvd_of_mod_eq_zero aligned),
      BitVec.ofNat_toNat, BitVec.setWidth_eq]
  · cases held

/-- It is enough to look at the instructions of a list. -/
theorem closed_ofList
    {codes : List Code}
    (check :
      codes.zipIdx.all
          (fun entry =>
            decide
              ((ofList codes).GoesOn (BitVec.ofNat 32 (4 * entry.2))
                entry.1)) =
        true) :
    (ofList codes).Closed := by
  intro pc code held
  obtain ⟨index, found, rfl⟩ := ofList_eq_some held
  have member : (code, index) ∈ codes.zipIdx :=
    List.mk_mem_zipIdx_iff_getElem?.mpr found
  exact of_decide_eq_true (List.all_eq_true.mp check _ member)

end Program

end Rv32
