import Tartaruga.CoreRun

namespace Tartaruga

/-!
# Carriers

An instruction between decode and write-back is carried by pipeline registers,
by one or by several of them.  The module says which registers a clock edge
copies an instruction from and, conversely, where it goes.
-/

/-- The registers that carry an instruction. -/
inductive Place where
  | decodeToExe
  | exePipe (stage : Fin 4)
  | exeToMem
  | memToWb
  deriving DecidableEq

namespace Exe

variable {exe : Exe} {input : DecodeToExe}

/-- A slot takes over its predecessor, or the input when that is its place. -/
theorem exePipeD_cases (exe : Exe) (input : DecodeToExe) (slot : Fin 5) :
    exe.exePipeD input slot = exe.shifted slot ∨
      (exe.exePipeD input slot = input ∧
        entrySlot input.instr.exeStages = some slot ∧
        (exe.shifted slot).valid = false) := by
  unfold exePipeD
  cases entry : entrySlot input.instr.exeStages with
  | none =>
      exact .inl rfl
  | some target =>
      by_cases taken : (exe.shifted target).valid = true
      · simp [taken]
      · by_cases isTarget : slot = target
        · subst isTarget
          simp [taken]
        · simp [taken, isTarget]

/-- The predecessor of the last slot. -/
theorem shifted_last : exe.shifted 4 = exe.exePipeQ 3 :=
  rfl

/-- The predecessor of an inner slot. -/
theorem shifted_succ (stage : Fin 4) :
    exe.shifted stage.succ = exe.exePipeQ stage.castSucc := by
  match stage with
  | 0 | 1 | 2 | 3 => rfl

/-- Execute stalls a single-cycle instruction behind a finished
multiplication. -/
theorem stall_default (single : input.instr.exeStages = exeStagesDefault) :
    exe.stall input = (exe.exePipeQ 3).valid := by
  unfold stall
  rw [single]
  rfl

/-- A multiplication never stalls in execute. -/
theorem stall_mult (isMult : input.instr.exeStages = exeStagesMult) :
    exe.stall input = false := by
  unfold stall
  rw [isMult]
  rfl

/-- An occupied slot moves on, whatever the input is. -/
theorem exePipeD_of_valid
    {slot : Fin 5}
    (valid : (exe.shifted slot).valid = true) :
    exe.exePipeD input slot = exe.shifted slot := by
  rcases exePipeD_cases exe input slot with moved | ⟨_, _, free⟩
  · exact moved
  · rw [valid] at free
    cases free

/-- Only multiplications enter the slots before the last, and there the first
one. -/
theorem isMul_of_entrySlot
    {instr : InstrData}
    {stage : Fin 4}
    (shape : instr.Shape)
    (enters : entrySlot instr.exeStages = some stage.castSucc) :
    instr.isMul = true ∧ stage = 0 := by
  rcases shape.stages with ⟨isMul, isMult⟩ | ⟨_, single⟩
  · refine ⟨isMul, ?_⟩
    rw [isMult] at enters
    have first : (0 : Fin 5) = stage.castSucc := Option.some.inj enters
    exact Fin.ext (congrArg Fin.val first).symm
  · rw [single] at enters
    have last : (4 : Fin 5) = stage.castSucc := Option.some.inj enters
    have value : 4 = stage.val := congrArg Fin.val last
    exact (Nat.ne_of_gt stage.isLt value).elim

/-- A multiplication enters the first slot. -/
theorem exePipeD_first
    (exe : Exe)
    (isMult : input.instr.exeStages = exeStagesMult) :
    exe.exePipeD input 0 = input := by
  unfold exePipeD
  rw [isMult]
  rfl

/-- A single-cycle instruction enters a free last slot. -/
theorem exePipeD_last
    (single : input.instr.exeStages = exeStagesDefault)
    (free : (exe.exePipeQ 3).valid = false) :
    exe.exePipeD input 4 = input := by
  unfold exePipeD
  rw [single]
  change
    (if (exe.shifted 4).valid = true then exe.shifted
      else Function.update exe.shifted 4 input) 4 = input
  rw [shifted_last, free]
  simp

/-- A single-cycle instruction that is accepted passes the last slot. -/
theorem exePipeD_of_single
    (shape : input.instr.Shape)
    (accepted : exe.stall input = false)
    (entry : entrySlot input.instr.exeStages = some 4) :
    input.instr.isMul = false ∧ exe.exePipeD input 4 = input := by
  rcases shape.stages with ⟨_, isMult⟩ | ⟨notMul, single⟩
  · rw [isMult] at entry
    cases entry
  · refine ⟨notMul, exePipeD_last single ?_⟩
    rw [← stall_default single]
    exact accepted

end Exe

namespace Datapath

variable {core : Datapath} {answer : FetchAnswer} {instr : InstrData}
  {place : Place}

/-- The valid bit and the instruction of a register. -/
def register (core : Datapath) : Place → Bool × InstrData
  | .decodeToExe => (core.decodeToExeQ.valid, core.decodeToExeQ.instr)
  | .exePipe stage =>
      ((core.exe.exePipeQ stage.castSucc).valid,
        (core.exe.exePipeQ stage.castSucc).instr)
  | .exeToMem => (core.exeToMemQ.valid, core.exeToMemQ.instr)
  | .memToWb => (core.memToWbQ.valid, core.memToWbQ.instr)

/-- The register carries a valid copy of the instruction. -/
def Carries (core : Datapath) (place : Place) (instr : InstrData) : Prop :=
  (core.register place).1 = true ∧ (core.register place).2 = instr

/-- A clock edge copies the contents of the first register to the second. -/
inductive Feeds (core : Datapath) : Place → Place → Prop where
  | holdExe :
      core.stallFromExe = true ∨ core.stallFromMem = true →
      Feeds core .decodeToExe .decodeToExe
  | enter (stage : Fin 4) :
      Exe.entrySlot core.decodeToExeQ.instr.exeStages =
        some stage.castSucc →
      Feeds core .decodeToExe (.exePipe stage)
  | advance (stage : Fin 3) :
      Feeds core (.exePipe stage.castSucc) (.exePipe stage.succ)
  | single :
      core.stallFromMem = false →
      core.stallFromExe = false →
      Exe.entrySlot core.decodeToExeQ.instr.exeStages = some 4 →
      Feeds core .decodeToExe .exeToMem
  | leave :
      core.stallFromMem = false →
      Feeds core (.exePipe 3) .exeToMem
  | holdMem :
      core.stallFromMem = true →
      Feeds core .exeToMem .exeToMem
  | finish :
      core.memToWbD.valid = true →
      Feeds core .exeToMem .memToWb

/-- The memory stage passes on the instruction in front of it only. -/
theorem valid_of_memToWbD (finishes : core.memToWbD.valid = true) :
    core.exeToMemQ.valid = true := by
  simp only [memToWbD, MemStage.memToWbD, MemStage.validNoMem,
    MemStage.validLoadBypass, MemStage.validLoadDcache, MemStage.validStore,
    Bool.or_eq_true, Bool.and_eq_true] at finishes
  rcases finishes with (noMem | bypassed | answered) | stored
  · exact noMem.1.1
  · exact bypassed.1.1
  · exact answered.1.1.1.1
  · exact stored.1.1

/-- What is carried after a clock edge was carried before it, in a register
that feeds this one, or is allocated in this cycle. -/
theorem carries_clock
    (carries : (core.clock answer).Carries place instr) :
    (place = .decodeToExe ∧ core.allocates answer = true ∧
        instr = core.decoded) ∨
      ∃ source, core.Feeds source place ∧ core.Carries source instr := by
  cases place with
  | decodeToExe =>
      obtain ⟨valid, rfl⟩ := carries
      change (core.decodeToExeNext answer).valid = true at valid
      change
        (_ ∧ _ ∧ (core.decodeToExeNext answer).instr = _) ∨
          ∃ source, _ ∧ core.Carries source (core.decodeToExeNext answer).instr
      unfold decodeToExeNext at valid ⊢
      by_cases moves : (!core.stall answer) = true
      · rw [if_pos moves] at valid ⊢
        exact .inl ⟨rfl, valid, rfl⟩
      · rw [if_neg moves] at valid ⊢
        by_cases bubble : (!core.stallFromExe && !core.stallFromMem) = true
        · rw [if_pos bubble] at valid
          cases valid
        · rw [if_neg bubble] at valid ⊢
          refine .inr ⟨.decodeToExe, .holdExe ?_, valid, rfl⟩
          simp only [Bool.and_eq_true, Bool.not_eq_true'] at bubble
          by_contra neither
          simp only [not_or, Bool.not_eq_true] at neither
          exact bubble neither
  | exePipe stage =>
      obtain ⟨valid, rfl⟩ := carries
      change (core.exe.exePipeD core.decodeToExeQ stage.castSucc).valid = true
        at valid
      change _ ∨ ∃ source, _ ∧ core.Carries source
        (core.exe.exePipeD core.decodeToExeQ stage.castSucc).instr
      rcases core.exe.exePipeD_cases core.decodeToExeQ stage.castSucc with
        moved | ⟨entered, entry, _⟩
      · rw [moved] at valid ⊢
        cases stage using Fin.cases with
        | zero =>
            cases valid
        | succ stage =>
            rw [show stage.succ.castSucc = stage.castSucc.succ from rfl,
              Exe.shifted_succ] at valid ⊢
            exact .inr ⟨_, .advance stage, valid, rfl⟩
      · rw [entered] at valid ⊢
        exact .inr ⟨.decodeToExe, .enter stage entry, valid, rfl⟩
  | exeToMem =>
      obtain ⟨valid, rfl⟩ := carries
      change
        (if !core.stallFromMem then core.exeToMemD
          else core.exeToMemQ).valid = true at valid
      change _ ∨ ∃ source, _ ∧ core.Carries source
        (if !core.stallFromMem then core.exeToMemD else core.exeToMemQ).instr
      cases stalled : core.stallFromMem with
      | true =>
          rw [stalled] at valid
          exact .inr ⟨.exeToMem, .holdMem stalled, valid, rfl⟩
      | false =>
          rw [stalled] at valid
          change (core.exe.exePipeD core.decodeToExeQ 4).valid = true at valid
          change _ ∨ ∃ source, _ ∧ core.Carries source
            (core.exe.exePipeD core.decodeToExeQ 4).instr
          rcases core.exe.exePipeD_cases core.decodeToExeQ 4 with
            moved | ⟨entered, entry, free⟩
          · rw [moved] at valid ⊢
            exact .inr ⟨.exePipe 3, .leave stalled, valid, rfl⟩
          · rw [entered] at valid ⊢
            refine .inr ⟨.decodeToExe, .single stalled ?_ entry, valid, rfl⟩
            unfold stallFromExe Exe.stall
            rw [entry]
            exact free
  | memToWb =>
      obtain ⟨valid, rfl⟩ := carries
      exact .inr ⟨.exeToMem, .finish valid, valid_of_memToWbD valid, rfl⟩

/-- Nothing is copied from the write-back register. -/
theorem Feeds.source_ne_memToWb
    {source target : Place}
    (feeds : core.Feeds source target) :
    source ≠ .memToWb := by
  cases feeds <;> simp

/-- The decoded instruction has a proper shape. -/
theorem decoded_shape : core.decoded.Shape :=
  decoder_shape _ _ _ _

/-- Decode carries the index that the reorder buffer hands out. -/
theorem decoded_robIdx : core.decoded.robIdx = core.rob.tailPtrQ :=
  decoder_robIdx _ _ _ _

/-- Every carried instruction has a proper shape. -/
def Shaped (core : Datapath) : Prop :=
  ∀ place instr, core.Carries place instr → instr.Shape

/-- A clock edge keeps the shape of what is carried. -/
theorem shaped_clock (shaped : core.Shaped) : (core.clock answer).Shaped := by
  intro place instr carries
  rcases carries_clock carries with
    ⟨_, _, rfl⟩ | ⟨source, _, carriesBefore⟩
  · exact decoded_shape
  · exact shaped source instr carriesBefore

/-- Nothing is carried after reset. -/
theorem not_carries_reset (core : Datapath) :
    ¬ core.reset.Carries place instr := by
  rintro ⟨valid, _⟩
  cases place with
  | exePipe stage =>
      match stage with
      | 0 | 1 | 2 | 3 => cases valid
  | _ =>
      cases valid

/-- A memory stage that does not stall passes its instruction on. -/
theorem memToWbD_valid
    (valid : core.exeToMemQ.valid = true)
    (moves : core.stallFromMem = false) :
    core.memToWbD.valid = true := by
  simp only [stallFromMem, MemStage.stall, MemStage.isLoad,
    MemStage.isStore, valid, Bool.and_true, Bool.or_eq_false_iff] at moves
  obtain ⟨⟨loadReady, noCollision⟩, storeReady⟩ := moves
  simp only [memToWbD, MemStage.memToWbD, MemStage.validNoMem,
    MemStage.validLoadBypass, MemStage.validLoadDcache, MemStage.validStore,
    valid, noCollision, Bool.true_and]
  cases isStore : core.exeToMemQ.instr.storeToMem with
  | true =>
      rw [isStore] at storeReady
      simp only [Bool.true_and, Bool.not_eq_false'] at storeReady
      simp [storeReady]
  | false =>
      cases isLoad : core.exeToMemQ.instr.wbOrigin == WbOrigin.mem with
      | true =>
          rw [isLoad] at loadReady
          simp only [Bool.true_and, Bool.not_eq_false'] at loadReady
          rw [loadReady]
          cases core.mem.bypassFromSb core.exeToMemQ <;> simp
      | false =>
          simp

/-- What is held in front of execute stays there. -/
theorem decodeToExeQ_of_held
    (held : core.stallFromExe = true ∨ core.stallFromMem = true) :
    (core.clock answer).decodeToExeQ = core.decodeToExeQ := by
  have stalled : core.stall answer = true := by
    rcases held with fromExe | fromMem
    · exact stall_of_stallFromExe fromExe
    · exact stall_of_stallFromMem fromMem
  change core.decodeToExeNext answer = core.decodeToExeQ
  simp only [decodeToExeNext, stalled, Bool.not_true, Bool.false_eq_true,
    if_false]
  rcases held with fromExe | fromMem
  · rw [fromExe]
    rfl
  · rw [fromMem, Bool.not_true, Bool.and_false, if_neg Bool.false_ne_true]

/-- Without a memory stall execute is followed by memory. -/
theorem exeToMemQ_of_moves (moves : core.stallFromMem = false) :
    (core.clock answer).exeToMemQ = core.exeToMemD := by
  change (if !core.stallFromMem then core.exeToMemD else core.exeToMemQ) = _
  rw [moves]
  rfl

/-- A stalled memory stage keeps its instruction. -/
theorem exeToMemQ_of_stalls (stalls : core.stallFromMem = true) :
    (core.clock answer).exeToMemQ = core.exeToMemQ := by
  change (if !core.stallFromMem then core.exeToMemD else core.exeToMemQ) = _
  rw [stalls]
  rfl

/-- What leaves the execute pipe is carried to the memory stage, unless that
stage stalls. -/
theorem carries_exeToMem_of_leaves
    {entry : DecodeToExe}
    (leaves : core.exe.exePipeD core.decodeToExeQ 4 = entry)
    (valid : entry.valid = true)
    (moves : core.stallFromMem = false) :
    (core.clock answer).Carries .exeToMem entry.instr := by
  have next : (core.clock answer).exeToMemQ = core.exeToMemD :=
    exeToMemQ_of_moves moves
  constructor
  · change (core.clock answer).exeToMemQ.valid = true
    rw [next]
    exact (congrArg DecodeToExe.valid leaves).trans valid
  · change (core.clock answer).exeToMemQ.instr = _
    rw [next]
    exact congrArg DecodeToExe.instr leaves

/--
An instruction upstream of write-back goes on being carried, unless it stands
at the end of the execute pipe while the memory stage stalls.
-/
theorem carries_onward
    (shaped : core.Shaped)
    (carries : core.Carries place instr)
    (notLast : place ≠ .memToWb)
    (notDropped : place = .exePipe 3 → core.stallFromMem = false) :
    ∃ target, (core.clock answer).Carries target instr := by
  have shape := shaped place instr carries
  obtain ⟨valid, rfl⟩ := carries
  cases place with
  | decodeToExe =>
      by_cases held :
          core.stallFromExe = true ∨ core.stallFromMem = true
      · have stays : (core.clock answer).decodeToExeQ = core.decodeToExeQ :=
          decodeToExeQ_of_held held
        exact
          ⟨.decodeToExe, (congrArg DecodeToExe.valid stays).trans valid,
            congrArg DecodeToExe.instr stays⟩
      · simp only [not_or, Bool.not_eq_true] at held
        rcases shape.stages with ⟨_, isMult⟩ | ⟨_, single⟩
        · have enters := core.exe.exePipeD_first isMult
          refine ⟨.exePipe 0, ?_, ?_⟩
          · change (core.exe.exePipeD core.decodeToExeQ 0).valid = true
            rw [enters]
            exact valid
          · change (core.exe.exePipeD core.decodeToExeQ 0).instr = _
            rw [enters]
            rfl
        · have free : (core.exe.exePipeQ 3).valid = false := by
            rw [← Exe.stall_default single]
            exact held.1
          have enters := Exe.exePipeD_last single free
          exact ⟨.exeToMem, carries_exeToMem_of_leaves enters valid held.2⟩
  | exePipe stage =>
      have shifted :
          core.exe.shifted stage.succ = core.exe.exePipeQ stage.castSucc :=
        Exe.shifted_succ stage
      have moves :
          core.exe.exePipeD core.decodeToExeQ stage.succ =
            core.exe.exePipeQ stage.castSucc := by
        rw [← shifted]
        exact Exe.exePipeD_of_valid (shifted ▸ valid)
      cases stage using Fin.lastCases with
      | last =>
          exact ⟨.exeToMem,
            carries_exeToMem_of_leaves moves valid (notDropped rfl)⟩
      | cast stage =>
          exact ⟨.exePipe stage.succ,
            (congrArg DecodeToExe.valid moves).trans valid,
            congrArg DecodeToExe.instr moves⟩
  | exeToMem =>
      cases stalled : core.stallFromMem with
      | true =>
          have next : (core.clock answer).exeToMemQ = core.exeToMemQ :=
            exeToMemQ_of_stalls stalled
          exact
            ⟨.exeToMem, (congrArg ExeToMem.valid next).trans valid,
              congrArg ExeToMem.instr next⟩
      | false =>
          exact ⟨.memToWb, memToWbD_valid valid stalled, rfl⟩
  | memToWb =>
      exact (notLast rfl).elim

end Datapath

end Tartaruga
