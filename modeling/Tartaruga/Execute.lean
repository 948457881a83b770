import Tartaruga.Package

namespace Tartaruga

/-!
# Execute

The arithmetic unit, the branch comparator, the pipelined multiplier and the
metadata pipe that carries an instruction to the stage where its result is
ready.
-/

/-- The arithmetic unit. -/
def alu (dataRs1 dataRs2 : Bus32) : AluOp → Bus32
  | .add => dataRs1 + dataRs2
  | .sub => dataRs1 - dataRs2
  | .slt => if dataRs1.slt dataRs2 then 1 else 0
  | .sltu => if dataRs1.ult dataRs2 then 1 else 0
  | .sll => dataRs1 <<< (dataRs2.extractLsb' 0 5).toNat
  | .srl => dataRs1 >>> (dataRs2.extractLsb' 0 5).toNat
  | .sra => dataRs1.sshiftRight (dataRs2.extractLsb' 0 5).toNat
  | .xor => dataRs1 ^^^ dataRs2
  | .or => dataRs1 ||| dataRs2
  | .and => dataRs1 &&& dataRs2

/-- The branch comparator. -/
def branch (dataRs1 dataRs2 : Bus32) : JumpKind → Bool
  | .bnone => false
  | .jump => true
  | .bne => !(dataRs1 == dataRs2)
  | .beq => dataRs1 == dataRs2
  | .blt => dataRs1.slt dataRs2
  | .bltu => dataRs1.ult dataRs2
  | .bge => !(dataRs1.slt dataRs2)
  | .bgeu => !(dataRs1.ult dataRs2)

/-- Registers of the execute stage: the metadata pipe and the delay line of
the multiplier. -/
structure Exe where
  exePipeQ : Fin 5 → DecodeToExe
  delay : Fin 4 → Bus32

namespace Exe

/-- Reset value of the execute stage. -/
def reset : Exe where
  exePipeQ := fun _ => nopInstr
  delay := fun _ => 0

/--
The slot `MAX_EXE_STAGES - exe_stages` where an instruction enters the pipe.
A stage count of zero or above five names no slot: such a read is not `1` and
such a write is dropped.
-/
def entrySlot (exeStages : BitVec 3) : Option (Fin 5) :=
  if exeStages = 1 then some 4
  else if exeStages = 2 then some 3
  else if exeStages = 3 then some 2
  else if exeStages = 4 then some 1
  else if exeStages = 5 then some 0
  else none

/-- The pipe moved on by one stage, with a bubble in front. -/
def shifted (exe : Exe) (slot : Fin 5) : DecodeToExe :=
  if slot = 0 then nopInstr else exe.exePipeQ (slot - 1)

/-- The instruction at the input finds its entry slot taken. -/
def stall (exe : Exe) (input : DecodeToExe) : Bool :=
  match entrySlot input.instr.exeStages with
  | some slot => (exe.shifted slot).valid
  | none => false

/-- Next value of the metadata pipe. -/
def exePipeD (exe : Exe) (input : DecodeToExe) : Fin 5 → DecodeToExe :=
  match entrySlot input.instr.exeStages with
  | some slot =>
      if (exe.shifted slot).valid then exe.shifted
      else Function.update exe.shifted slot input
  | none => exe.shifted

/-- First operand of the arithmetic unit and of the multiplier. -/
def aluDataRs1 (input : DecodeToExe) : Bus32 :=
  if input.instr.rs1OrPc = .rs1 then input.dataRs1 else input.instr.pc

/-- Second operand of the arithmetic unit and of the multiplier. -/
def aluDataRs2 (input : DecodeToExe) : Bus32 :=
  if input.instr.rs2OrImm = .rs2 then input.dataRs2 else input.immediate

/-- Output of the arithmetic unit. -/
def resAlu (input : DecodeToExe) : Bus32 :=
  alu (aluDataRs1 input) (aluDataRs2 input) input.instr.aluOp

/-- Output of the branch comparator. -/
def takenBranch (input : DecodeToExe) : Bool :=
  branch input.dataRs1 input.dataRs2 input.instr.jumpKind

/-- Combinational output towards the memory stage. -/
def exeToMemD (exe : Exe) (input : DecodeToExe) : ExeToMem :=
  let last := exe.exePipeD input 4
  { instr := last.instr
    valid := last.valid
    dataRs2 := last.dataRs2
    result := if last.instr.isMul then exe.delay 3 else resAlu input
    branchTaken :=
      takenBranch input && decide (last.instr.jumpKind ≠ .bnone) &&
        last.valid }

/-- Next value of the multiplier's delay line. -/
def delayD (exe : Exe) (input : DecodeToExe) (stage : Fin 4) : Bus32 :=
  if stage = 0 then aluDataRs1 input * aluDataRs2 input
  else exe.delay (stage - 1)

/-- One clock edge of the execute stage. -/
def clock (exe : Exe) (input : DecodeToExe) : Exe where
  exePipeQ := exe.exePipeD input
  delay := exe.delayD input

end Exe

end Tartaruga
