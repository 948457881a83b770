import Tartaruga.Carriers

namespace Tartaruga

/-!
# What leaves the execute stage

Result, branch condition and instruction are taken from three different
places: from the arithmetic unit or the multiplier, from the comparator, and
from the last slot of the metadata pipe.  They belong to one instruction.
-/

/-- The condition of a control transfer on its two operands. -/
def JumpKind.Holds (dataRs1 dataRs2 : Bus32) : JumpKind → Prop
  | .bnone => False
  | .jump => True
  | .bne => dataRs1 ≠ dataRs2
  | .beq => dataRs1 = dataRs2
  | .blt => dataRs1.toInt < dataRs2.toInt
  | .bltu => dataRs1.toNat < dataRs2.toNat
  | .bge => dataRs2.toInt ≤ dataRs1.toInt
  | .bgeu => dataRs2.toNat ≤ dataRs1.toNat

/-- The comparator evaluates the condition. -/
theorem branch_iff
    (dataRs1 dataRs2 : Bus32)
    (jumpKind : JumpKind) :
    branch dataRs1 dataRs2 jumpKind = true ↔
      jumpKind.Holds dataRs1 dataRs2 := by
  cases jumpKind <;>
    simp [branch, JumpKind.Holds, BitVec.slt, BitVec.ult]

namespace Exe

/-- The product of the two register operands, or the result of the arithmetic
unit. -/
def ownResult (input : DecodeToExe) : Bus32 :=
  if input.instr.isMul then input.dataRs1 * input.dataRs2
  else resAlu input

/-- A multiplication selects both register operands, so that the multiplier
forms their product. -/
theorem ownResult_of_isMul
    {input : DecodeToExe}
    (shape : input.instr.Shape)
    (isMul : input.instr.isMul = true) :
    ownResult input = aluDataRs1 input * aluDataRs2 input := by
  obtain ⟨first, second⟩ := shape.operands isMul
  rw [ownResult, if_pos isMul, aluDataRs1, aluDataRs2, if_pos first,
    if_pos second]

/-- What execute makes of one instruction, looked at on its own. -/
structure Outcome (input : DecodeToExe) (output : ExeToMem) : Prop where
  instr : output.instr = input.instr
  valid : output.valid = input.valid
  dataRs2 : output.dataRs2 = input.dataRs2
  result : output.result = ownResult input
  branchTaken :
    output.branchTaken = true ↔
      input.instr.jumpKind.Holds input.dataRs1 input.dataRs2

/-- What the decoder makes of a word, or a bubble. -/
def FromDecoder (input : DecodeToExe) : Prop :=
  input = nopInstr ∨
    ∃ pc word robIdx idDecode,
      input.instr = decoder pc word robIdx idDecode

/-- Whatever comes from the decoder has a proper shape. -/
theorem FromDecoder.shape
    {input : DecodeToExe}
    (fromDecoder : FromDecoder input) :
    input.instr.Shape := by
  rcases fromDecoder with rfl | ⟨pc, word, robIdx, idDecode, decoded⟩
  · exact Decoder.shape_plain ⟨rfl, rfl⟩ rfl nofun
  · rw [decoded]
    exact decoder_shape pc word robIdx idDecode

section Run

variable {stimulus : Nat → DecodeToExe}

/-- The delay line of the multiplier holds the products of earlier cycles. -/
theorem run_delay
    (initial : Exe)
    (stimulus : Nat → DecodeToExe)
    (cycle : Nat)
    (stage : Fin 4) :
    (Clocked.run clock initial stimulus (cycle + stage.val + 1)).delay
        stage =
      aluDataRs1 (stimulus cycle) * aluDataRs2 (stimulus cycle) := by
  apply Clocked.shiftRegister_input
    (fun cycle => (Clocked.run clock initial stimulus cycle).delay)
    fun cycle => aluDataRs1 (stimulus cycle) * aluDataRs2 (stimulus cycle)
  · intro cycle
    rfl
  · intro cycle stage
    match stage with
    | 0 | 1 | 2 =>
        rfl

/-- Result and branch condition belong to the instruction in the last slot,
if a multiplication has been under way for four cycles and everything else
has just come in. -/
theorem outcome_of_last
    {initial : Exe}
    {entered cycle : Nat}
    (shape : (stimulus entered).instr.Shape)
    (valid : (stimulus entered).valid = true)
    (last :
      (Clocked.run clock initial stimulus cycle).exePipeD (stimulus cycle)
          4 =
        stimulus entered)
    (source :
      ((stimulus entered).instr.isMul = true ∧ entered + 4 = cycle) ∨
        ((stimulus entered).instr.isMul = false ∧ entered = cycle)) :
    Outcome (stimulus entered)
      ((Clocked.run clock initial stimulus cycle).exeToMemD
        (stimulus cycle)) := by
  constructor
  · exact congrArg DecodeToExe.instr last
  · exact congrArg DecodeToExe.valid last
  · exact congrArg DecodeToExe.dataRs2 last
  · simp only [exeToMemD, last]
    rcases source with ⟨isMul, age⟩ | ⟨notMul, same⟩
    · have product := run_delay initial stimulus entered 3
      rw [show entered + (3 : Fin 4).val + 1 = cycle from age] at product
      rw [ownResult_of_isMul shape isMul, if_pos isMul]
      exact product
    · rw [ownResult, notMul, same]
      rfl
  · simp only [exeToMemD, last, valid, takenBranch, Bool.and_true,
      Bool.and_eq_true, branch_iff, decide_eq_true_eq]
    rcases source with ⟨isMul, _⟩ | ⟨_, same⟩
    · have noJump := (shape.ofMul isMul).2.2
      simp [noJump, JumpKind.Holds]
    · rw [same]
      constructor
      · intro taken
        exact taken.1
      · intro holds
        refine ⟨holds, ?_⟩
        intro noJump
        rw [noJump] at holds
        exact holds

/-- What travels through the pipe is a multiplication that entered the first
slot as many cycles ago. -/
theorem run_exePipe
    (fromDecoder : ∀ cycle, FromDecoder (stimulus cycle))
    (cycle : Nat)
    (stage : Fin 4)
    (valid :
      ((Clocked.run clock reset stimulus cycle).exePipeQ
        stage.castSucc).valid = true) :
    ∃ entered,
      entered + stage.val + 1 = cycle ∧
        (Clocked.run clock reset stimulus cycle).exePipeQ stage.castSucc =
          stimulus entered ∧
        (stimulus entered).instr.isMul = true := by
  induction cycle generalizing stage with
  | zero =>
      cases valid
  | succ cycle inductionHypothesis =>
      have enters := exePipeD_cases (Clocked.run clock reset stimulus cycle)
        (stimulus cycle) stage.castSucc
      change
        ((Clocked.run clock reset stimulus cycle).exePipeD (stimulus cycle)
          stage.castSucc).valid = true at valid
      change
        ∃ entered,
          _ ∧
            (Clocked.run clock reset stimulus cycle).exePipeD
                (stimulus cycle) stage.castSucc =
              stimulus entered ∧ _
      rcases enters with moved | ⟨entered, entry, _⟩
      · rw [moved] at valid ⊢
        cases stage using Fin.cases with
        | zero =>
            cases valid
        | succ stage =>
            have shifted :
                (Clocked.run clock reset stimulus cycle).shifted
                    stage.castSucc.succ =
                  (Clocked.run clock reset stimulus cycle).exePipeQ
                    stage.castSucc.castSucc :=
              shifted_succ stage.castSucc
            change
              ((Clocked.run clock reset stimulus cycle).shifted
                stage.castSucc.succ).valid = true at valid
            change
              ∃ entered,
                _ ∧
                  (Clocked.run clock reset stimulus cycle).shifted
                      stage.castSucc.succ =
                    stimulus entered ∧ _
            rw [shifted] at valid ⊢
            obtain ⟨entered, age, holds, isMul⟩ :=
              inductionHypothesis stage.castSucc valid
            exact ⟨entered, congrArg Nat.succ age, holds, isMul⟩
      · obtain ⟨isMul, isFirst⟩ :=
          isMul_of_entrySlot (fromDecoder cycle).shape entry
        refine ⟨cycle, ?_, entered, isMul⟩
        rw [isFirst]
        rfl

/-- The last slot takes over a finished multiplication or the input. -/
theorem run_last
    (fromDecoder : ∀ cycle, FromDecoder (stimulus cycle))
    (cycle : Nat)
    (valid :
      ((Clocked.run clock reset stimulus cycle).exePipeD (stimulus cycle)
        4).valid = true) :
    ∃ entered,
      (Clocked.run clock reset stimulus cycle).exePipeD (stimulus cycle) 4 =
          stimulus entered ∧
        (((stimulus entered).instr.isMul = true ∧ entered + 4 = cycle) ∨
          ((stimulus entered).instr.isMul = false ∧ entered = cycle)) := by
  have enters := exePipeD_cases (Clocked.run clock reset stimulus cycle)
    (stimulus cycle) 4
  rcases enters with moved | ⟨entered, entry, _⟩
  · rw [moved, shifted_last] at valid ⊢
    obtain ⟨entered, age, holds, isMul⟩ :=
      run_exePipe fromDecoder cycle 3 valid
    exact ⟨entered, holds, .inl ⟨isMul, age⟩⟩
  · refine ⟨cycle, entered, .inr ⟨?_, rfl⟩⟩
    rcases (fromDecoder cycle).shape.stages with ⟨_, isMult⟩ | ⟨single, _⟩
    · rw [isMult] at entry
      cases entry
    · exact single

/--
Whatever enters the execute stage, everything that leaves it with its valid
bit set belongs to one instruction: to a multiplication that entered four
cycles ago, or to the instruction at the input.  In a cycle in which the stage
stalls, the instruction at the input is not the one at the output.
-/
theorem output_of_one_instruction
    (fromDecoder : ∀ cycle, FromDecoder (stimulus cycle))
    (cycle : Nat) :
    (((Clocked.run clock reset stimulus cycle).exeToMemD
          (stimulus cycle)).valid = true →
        ∃ entered,
          Outcome (stimulus entered)
              ((Clocked.run clock reset stimulus cycle).exeToMemD
                (stimulus cycle)) ∧
            (((stimulus entered).instr.isMul = true ∧
                entered + 4 = cycle) ∨
              ((stimulus entered).instr.isMul = false ∧
                entered = cycle))) ∧
      ((Clocked.run clock reset stimulus cycle).stall (stimulus cycle) =
          true →
        (stimulus cycle).instr ≠
          ((Clocked.run clock reset stimulus cycle).exeToMemD
            (stimulus cycle)).instr) := by
  constructor
  · intro valid
    obtain ⟨entered, last, source⟩ := run_last fromDecoder cycle valid
    have entersValid : (stimulus entered).valid = true := by
      rw [← last]
      exact valid
    exact ⟨entered,
      outcome_of_last (fromDecoder entered).shape entersValid last source,
      source⟩
  · intro stalls sameInstr
    have shape := (fromDecoder cycle).shape
    rcases shape.stages with ⟨_, isMult⟩ | ⟨notMul, single⟩
    · rw [stall_mult isMult] at stalls
      cases stalls
    · rw [stall_default single] at stalls
      have moves :
          (Clocked.run clock reset stimulus cycle).exePipeD
              (stimulus cycle) 4 =
            (Clocked.run clock reset stimulus cycle).exePipeQ 3 :=
        exePipeD_of_valid stalls
      obtain ⟨entered, _, holds, isMul⟩ :=
        run_exePipe fromDecoder cycle 3 stalls
      have outMul :
          ((Clocked.run clock reset stimulus cycle).exeToMemD
            (stimulus cycle)).instr.isMul = true := by
        change
          ((Clocked.run clock reset stimulus cycle).exePipeD
            (stimulus cycle) 4).instr.isMul = true
        rw [moves]
        exact (congrArg (fun input => input.instr.isMul) holds).trans isMul
      rw [← sameInstr, notMul] at outMul
      cases outMul

/-- A multiplication of six by seven enters, and an addition follows four
cycles later. -/
def mulThenAdd : Nat → DecodeToExe
  | 0 =>
      { instr := decoder 0 0x025201b3 0 0 -- mul x3, x4, x5
        valid := true
        dataRs1 := 6
        dataRs2 := 7
        immediate := 0 }
  | 4 =>
      { instr := decoder 4 0x005201b3 1 1 -- add x3, x4, x5
        valid := true
        dataRs1 := 1
        dataRs2 := 2
        immediate := 0 }
  | _ => nopInstr

/-- When they meet, the multiplication leaves with its own product and the
addition is held. -/
theorem output_of_one_instruction_mulThenAdd :
    (∃ entered,
        Outcome (mulThenAdd entered)
          ((Clocked.run clock reset mulThenAdd 4).exeToMemD
            (mulThenAdd 4))) ∧
      (mulThenAdd 4).instr ≠
        ((Clocked.run clock reset mulThenAdd 4).exeToMemD
          (mulThenAdd 4)).instr ∧
      ((Clocked.run clock reset mulThenAdd 4).exeToMemD
        (mulThenAdd 4)).result = 42 := by
  have fromDecoder : ∀ cycle, FromDecoder (mulThenAdd cycle) := by
    intro cycle
    unfold mulThenAdd
    split
    · exact .inr ⟨0, 0x025201b3, 0, 0, rfl⟩
    · exact .inr ⟨4, 0x005201b3, 1, 1, rfl⟩
    · exact .inl rfl
  obtain ⟨leaves, held⟩ := output_of_one_instruction fromDecoder 4
  obtain ⟨entered, outcome, _⟩ := leaves (by decide +kernel)
  exact ⟨⟨entered, outcome⟩, held (by decide +kernel), by decide +kernel⟩

end Run

end Exe

end Tartaruga
