import Tartaruga.Decoder

namespace Tartaruga

/-!
# What decoded instructions look like

The combinations of control fields that leave the decoder.  The later stages
of the pipeline rely on them: only a multiplication takes the long way through
execute, a multiplication selects both register operands, and an instruction
accesses memory in at most one direction.
-/

/-- The control fields agree with one another. -/
structure InstrData.Shape (data : InstrData) : Prop where
  stages :
    (data.isMul = true ∧ data.exeStages = exeStagesMult) ∨
      (data.isMul = false ∧ data.exeStages = exeStagesDefault)
  ofMul :
    data.isMul = true →
    data.wbOrigin = .alu ∧ data.storeToMem = false ∧
      data.jumpKind = .bnone
  operands :
    data.isMul = true →
    data.rs1OrPc = .rs1 ∧ data.rs2OrImm = .rs2
  ofStore :
    data.storeToMem = true →
    data.wbOrigin = .alu ∧ data.isMul = false ∧
      data.writeEnable = false ∧ data.jumpKind = .bnone
  ofLoad :
    data.wbOrigin = .mem →
    data.storeToMem = false ∧ data.isMul = false ∧ data.jumpKind = .bnone

namespace Decoder

variable {instr : Bus32} {decoded : InstrData}

/-- A shape is proper if both sides of a choice are. -/
theorem shape_ite
    {condition : Prop} [Decidable condition]
    {onTrue onFalse : InstrData}
    (shapeTrue : onTrue.Shape)
    (shapeFalse : onFalse.Shape) :
    (if condition then onTrue else onFalse).Shape := by
  split
  · exact shapeTrue
  · exact shapeFalse

/-- What the assignments in front of the case leave unset. -/
structure Fresh (decoded : InstrData) : Prop where
  exeStages : decoded.exeStages = exeStagesDefault
  isMul : decoded.isMul = false

/-- An ordinary instruction without a memory access. -/
theorem shape_plain
    (fresh : Fresh decoded)
    (noStore : decoded.storeToMem = false)
    (noLoad : decoded.wbOrigin ≠ .mem) :
    decoded.Shape where
  stages := .inr ⟨fresh.isMul, fresh.exeStages⟩
  ofMul isMul := by simp [fresh.isMul] at isMul
  operands isMul := by simp [fresh.isMul] at isMul
  ofStore store := by simp [noStore] at store
  ofLoad load := (noLoad load).elim

/-- An illegal instruction is an ordinary one. -/
theorem shape_illegal (fresh : Fresh decoded) : (illegal decoded).Shape :=
  shape_plain ⟨fresh.exeStages, fresh.isMul⟩ rfl (by simp [illegal])

/-- Immediate arithmetic is ordinary. -/
theorem shape_opAluI (fresh : Fresh decoded) : (opAluI instr decoded).Shape := by
  unfold opAluI
  extract_lets branch func3 func7
  have plain : ∀ op, ({ branch with aluOp := op } : InstrData).Shape :=
    fun op =>
      shape_plain ⟨fresh.exeStages, fresh.isMul⟩ rfl (by simp [branch])
  have illegal : (illegal branch).Shape :=
    shape_illegal ⟨fresh.exeStages, fresh.isMul⟩
  repeat' apply shape_ite
  all_goals first
    | exact plain _
    | exact illegal

/-- Register arithmetic is ordinary, except for multiplication. -/
theorem shape_opAlu (fresh : Fresh decoded) : (opAlu instr decoded).Shape := by
  unfold opAlu aluNormalOnly
  extract_lets branch func3 func7
  have plain : ∀ op, ({ branch with aluOp := op } : InstrData).Shape :=
    fun op =>
      shape_plain ⟨fresh.exeStages, fresh.isMul⟩ rfl (by simp [branch])
  have illegal : (illegal branch).Shape :=
    shape_illegal ⟨fresh.exeStages, fresh.isMul⟩
  have mul :
      ({ branch with
          aluOp := .add, isMul := true, exeStages := exeStagesMult } :
        InstrData).Shape := by
    constructor <;> simp [branch]
  repeat' apply shape_ite
  all_goals first
    | exact plain _
    | exact illegal
    | exact mul

/-- Every branch of the case on the opcode gives a proper shape. -/
theorem shape_opcodeCase (fresh : Fresh decoded) :
    (opcodeCase instr decoded).Shape := by
  unfold opcodeCase
  extract_lets opcode fallback
  have stages := fresh.exeStages
  have isMul := fresh.isMul
  refine shape_ite (shape_opAluI fresh)
    (shape_ite (shape_opAlu fresh) ?_)
  repeat' apply shape_ite
  · exact shape_plain ⟨stages, isMul⟩ rfl nofun
  · exact shape_plain ⟨stages, isMul⟩ rfl nofun
  · constructor <;> simp [isMul, stages]
  · constructor <;> simp [isMul, stages]
  · exact shape_plain ⟨stages, isMul⟩ rfl nofun
  · exact shape_plain ⟨stages, isMul⟩ rfl nofun
  · exact shape_plain ⟨stages, isMul⟩ rfl nofun
  · exact shape_plain ⟨stages, isMul⟩ rfl (by simp [fallback, illegal])

end Decoder

/-- Hardwiring a source to x0 changes none of the control fields. -/
theorem Decoder.shape_hardwireRs1
    {instr : Bus32}
    {decoded : InstrData}
    (shape : decoded.Shape) :
    (hardwireRs1 instr decoded).Shape := by
  unfold hardwireRs1
  apply shape_ite
  · exact
      ⟨shape.stages, shape.ofMul, shape.operands, shape.ofStore,
        shape.ofLoad⟩
  · exact shape

/-- Nor does hardwiring the other one. -/
theorem Decoder.shape_hardwireRs2
    {instr : Bus32}
    {decoded : InstrData}
    (shape : decoded.Shape) :
    (hardwireRs2 instr decoded).Shape := by
  unfold hardwireRs2
  apply shape_ite
  · exact
      ⟨shape.stages, shape.ofMul, shape.operands, shape.ofStore,
        shape.ofLoad⟩
  · exact shape

/-- Everything the decoder says has a proper shape. -/
theorem decoder_shape
    (pc instr : Bus32)
    (robIdx : RobIdx)
    (idDecode : Nat) :
    (decoder pc instr robIdx idDecode).Shape :=
  Decoder.shape_hardwireRs2
    (Decoder.shape_hardwireRs1 (Decoder.shape_opcodeCase ⟨rfl, rfl⟩))

/-- The fields that say which instruction this is, and not what it does. -/
def InstrData.identity (data : InstrData) : Bus32 × Bus32 × RobIdx × Nat :=
  (data.pc, data.instr, data.robIdx, data.kanataId)

namespace Decoder

variable (instr : Bus32) (decoded : InstrData)

/-- A choice keeps the identity if both sides do. -/
theorem identity_ite
    {condition : Prop} [Decidable condition]
    {onTrue onFalse original : InstrData}
    (sameTrue : onTrue.identity = original.identity)
    (sameFalse : onFalse.identity = original.identity) :
    (if condition then onTrue else onFalse).identity =
      original.identity := by
  split
  · exact sameTrue
  · exact sameFalse

theorem identity_opAluI :
    (opAluI instr decoded).identity = decoded.identity := by
  unfold opAluI
  extract_lets branch func3 func7
  repeat' apply identity_ite
  all_goals rfl

theorem identity_opAlu :
    (opAlu instr decoded).identity = decoded.identity := by
  unfold opAlu aluNormalOnly
  extract_lets branch func3 func7
  repeat' apply identity_ite
  all_goals rfl

theorem identity_opcodeCase :
    (opcodeCase instr decoded).identity = decoded.identity := by
  unfold opcodeCase
  extract_lets opcode
  refine identity_ite (identity_opAluI instr decoded)
    (identity_ite (identity_opAlu instr decoded) ?_)
  repeat' apply identity_ite
  all_goals rfl

theorem identity_hardwireRs1 :
    (hardwireRs1 instr decoded).identity = decoded.identity :=
  identity_ite rfl rfl

theorem identity_hardwireRs2 :
    (hardwireRs2 instr decoded).identity = decoded.identity :=
  identity_ite rfl rfl

end Decoder

/-- The decoder passes the identity of the instruction on. -/
theorem decoder_identity
    (pc instr : Bus32)
    (robIdx : RobIdx)
    (idDecode : Nat) :
    (decoder pc instr robIdx idDecode).identity =
      (pc, instr, robIdx, idDecode) := by
  unfold decoder
  rw [Decoder.identity_hardwireRs2, Decoder.identity_hardwireRs1,
    Decoder.identity_opcodeCase]
  rfl

section Labels

variable (pc instr : Bus32) (robIdx : RobIdx) (idDecode : Nat)

@[simp] theorem decoder_pc : (decoder pc instr robIdx idDecode).pc = pc :=
  congrArg (fun identity => identity.1)
    (decoder_identity pc instr robIdx idDecode)

@[simp] theorem decoder_instr :
    (decoder pc instr robIdx idDecode).instr = instr :=
  congrArg (fun identity => identity.2.1)
    (decoder_identity pc instr robIdx idDecode)

@[simp] theorem decoder_robIdx :
    (decoder pc instr robIdx idDecode).robIdx = robIdx :=
  congrArg (fun identity => identity.2.2.1)
    (decoder_identity pc instr robIdx idDecode)

@[simp] theorem decoder_kanataId :
    (decoder pc instr robIdx idDecode).kanataId = idDecode :=
  congrArg (fun identity => identity.2.2.2)
    (decoder_identity pc instr robIdx idDecode)

end Labels

namespace Decoder

variable {instr : Bus32} {decoded : InstrData}

/-- A choice has an origin of the earlier stages if both sides have. -/
theorem wbOrigin_ite
    {condition : Prop} [Decidable condition]
    {onTrue onFalse : InstrData}
    (originTrue : onTrue.wbOrigin ≠ .mul)
    (originFalse : onFalse.wbOrigin ≠ .mul) :
    (if condition then onTrue else onFalse).wbOrigin ≠ .mul := by
  split
  · exact originTrue
  · exact originFalse

theorem wbOrigin_opAluI : (opAluI instr decoded).wbOrigin ≠ .mul := by
  unfold opAluI
  extract_lets branch func3 func7
  repeat' apply wbOrigin_ite
  all_goals nofun

theorem wbOrigin_opAlu : (opAlu instr decoded).wbOrigin ≠ .mul := by
  unfold opAlu aluNormalOnly
  extract_lets branch func3 func7
  repeat' apply wbOrigin_ite
  all_goals nofun

theorem wbOrigin_opcodeCase :
    (opcodeCase instr decoded).wbOrigin ≠ .mul := by
  unfold opcodeCase
  extract_lets opcode
  refine wbOrigin_ite wbOrigin_opAluI (wbOrigin_ite wbOrigin_opAlu ?_)
  repeat' apply wbOrigin_ite
  all_goals nofun

theorem wbOrigin_hardwireRs1 (origin : decoded.wbOrigin ≠ .mul) :
    (hardwireRs1 instr decoded).wbOrigin ≠ .mul :=
  wbOrigin_ite origin origin

theorem wbOrigin_hardwireRs2 (origin : decoded.wbOrigin ≠ .mul) :
    (hardwireRs2 instr decoded).wbOrigin ≠ .mul :=
  wbOrigin_ite origin origin

end Decoder

/-- A product is written back like any other result of execute. -/
theorem decoder_wbOrigin
    (pc instr : Bus32)
    (robIdx : RobIdx)
    (idDecode : Nat) :
    (decoder pc instr robIdx idDecode).wbOrigin ≠ .mul :=
  Decoder.wbOrigin_hardwireRs2
    (Decoder.wbOrigin_hardwireRs1 Decoder.wbOrigin_opcodeCase)

end Tartaruga
