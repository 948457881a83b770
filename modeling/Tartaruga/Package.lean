import Mathlib.Algebra.Order.Ring.Int
import Mathlib.Data.Fin.Basic
import Mathlib.Logic.Function.Basic

namespace Tartaruga

/-!
# Shared types of the core

The widths, enumerations and packed structures that every module of the core
imports.  A packed vector is a `BitVec`, a one-bit signal is a `Bool`, and an
index into a buffer of fixed size is a `Fin` of that size, so pointer
increments wrap exactly where the hardware reduces them.

The `int` identifier that accompanies an instruction only feeds the pipeline
trace; it is a natural number here and never wraps.
-/

/-- A 32-bit data or address bus. -/
abbrev Bus32 := BitVec 32

/-- The name of an architectural register. -/
abbrev RegAddr := BitVec 5

/-- An index into the sixteen entries of the reorder buffer. -/
abbrev RobIdx := Fin 16

/-- An index into the four entries of the store buffer. -/
abbrev StoreBufferIdx := Fin 4

/-- The sizes of the indexed arrays are positive, so each has an index zero:
the reorder buffer, the store buffer, the pipelines of the execution unit and
of the memories, and the ways of a cache set. -/
instance robEntriesNeZero : NeZero 16 :=
  ⟨by decide⟩

instance storeBufferEntriesNeZero : NeZero 4 :=
  ⟨by decide⟩

instance pipelineStagesNeZero : NeZero 5 :=
  ⟨by decide⟩

instance cacheWaysNeZero : NeZero 2 :=
  ⟨by decide⟩

/-- Operations of the arithmetic unit. -/
inductive AluOp where
  | add
  | sub
  | slt
  | sltu
  | sll
  | srl
  | sra
  | xor
  | or
  | and
  deriving Repr, DecidableEq, Inhabited

/-- The second operand of the arithmetic unit. -/
inductive Rs2OrImm where
  | rs2
  | imm
  deriving Repr, DecidableEq, Inhabited

/-- The first operand of the arithmetic unit. -/
inductive Rs1OrPc where
  | rs1
  | pc
  deriving Repr, DecidableEq, Inhabited

/-- The unit whose value an instruction writes back. -/
inductive WbOrigin where
  | alu
  | mem
  | mul
  | pc4
  deriving Repr, DecidableEq, Inhabited

/-- Control-transfer kinds, in the order of their encoding. -/
inductive JumpKind where
  | jump
  | bne
  | beq
  | blt
  | bltu
  | bge
  | bgeu
  | bnone
  deriving Repr, DecidableEq, Inhabited

/-- Everything the decoder says about one instruction. -/
structure InstrData where
  pc : Bus32
  instr : Bus32
  addrRs1 : RegAddr
  addrRs2 : RegAddr
  addrRd : RegAddr
  writeEnable : Bool
  rs1OrPc : Rs1OrPc
  rs2OrImm : Rs2OrImm
  aluOp : AluOp
  wbOrigin : WbOrigin
  storeToMem : Bool
  jumpKind : JumpKind
  exeStages : BitVec 3
  isMul : Bool
  robIdx : RobIdx
  kanataId : Nat
  deriving Repr, DecidableEq, Inhabited

/-- The register between decode and execute. -/
structure DecodeToExe where
  instr : InstrData
  valid : Bool
  dataRs1 : Bus32
  dataRs2 : Bus32
  immediate : Bus32
  deriving Repr, DecidableEq, Inhabited

/-- The register between execute and memory. -/
structure ExeToMem where
  instr : InstrData
  valid : Bool
  dataRs2 : Bus32
  result : Bus32
  branchTaken : Bool
  deriving Repr, DecidableEq, Inhabited

/-- The register between memory and write-back. -/
structure MemToWb where
  instr : InstrData
  valid : Bool
  result : Bus32
  branchTaken : Bool
  branchedPc : Bus32
  storeBufferIdx : StoreBufferIdx
  deriving Repr, DecidableEq, Inhabited

/-- One entry of the reorder buffer. -/
structure RobEntry where
  valid : Bool
  completed : Bool
  pc : Bus32
  instr : Bus32
  addrRd : RegAddr
  writeEnable : Bool
  storeToMem : Bool
  result : Bus32
  newPc : Bus32
  branchTaken : Bool
  storeBufferIdx : StoreBufferIdx
  kanataId : Nat
  deriving Repr, DecidableEq, Inhabited

/-- The all-zero bit pattern of `InstrData`, which names the first constant of
every enumeration. -/
def InstrData.zero : InstrData where
  pc := 0
  instr := 0
  addrRs1 := 0
  addrRs2 := 0
  addrRd := 0
  writeEnable := false
  rs1OrPc := .rs1
  rs2OrImm := .rs2
  aluOp := .add
  wbOrigin := .alu
  storeToMem := false
  jumpKind := .jump
  exeStages := 0
  isMul := false
  robIdx := 0
  kanataId := 0

/-- Reset value of the decode-to-execute register. -/
def DecodeToExe.zero : DecodeToExe where
  instr := .zero
  valid := false
  dataRs1 := 0
  dataRs2 := 0
  immediate := 0

/-- Reset value of the execute-to-memory register. -/
def ExeToMem.zero : ExeToMem where
  instr := .zero
  valid := false
  dataRs2 := 0
  result := 0
  branchTaken := false

/-- Reset value of the memory-to-write-back register. -/
def MemToWb.zero : MemToWb where
  instr := .zero
  valid := false
  result := 0
  branchTaken := false
  branchedPc := 0
  storeBufferIdx := 0

/-- The all-zero bit pattern of a reorder-buffer entry. -/
def RobEntry.zero : RobEntry where
  valid := false
  completed := false
  pc := 0
  instr := 0
  addrRd := 0
  writeEnable := false
  storeToMem := false
  result := 0
  newPc := 0
  branchTaken := false
  storeBufferIdx := 0
  kanataId := 0

/-- Execution stages of an ordinary instruction. -/
def exeStagesDefault : BitVec 3 := 1

/-- Execution stages of a multiplication. -/
def exeStagesMult : BitVec 3 := 5

/-- The bubble that fills an empty execution slot. -/
def nopInstr : DecodeToExe where
  instr := {
    pc := 0
    instr := 0x00000033
    addrRs1 := 0
    addrRs2 := 0
    addrRd := 0
    writeEnable := false
    rs1OrPc := .rs1
    rs2OrImm := .rs2
    aluOp := .add
    wbOrigin := .alu
    storeToMem := false
    jumpKind := .bnone
    exeStages := 1
    isMul := false
    robIdx := 0
    kanataId := 0
  }
  valid := false
  dataRs1 := 0
  dataRs2 := 0
  immediate := 0

end Tartaruga
