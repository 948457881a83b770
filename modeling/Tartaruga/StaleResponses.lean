import Tartaruga.Leftovers
import Tartaruga.PipelinedMemory

namespace Tartaruga

/-!
# Stale responses of the memory

The response pipe is not reset.  It is empty before the first instruction has
been fetched, and the data that it still holds is overwritten before anything
is taken from it: nothing but a read fills the first line of the cache.
-/

namespace MemStage

variable {stage : MemStage} {rest after : Leftovers} {exeToMem : ExeToMem}
  {input : MemInput}

/-- The first response stage holds the same line. -/
def SameFirst (stage : MemStage) (rest : Leftovers) : Prop :=
  (rest.rspPipe 0).dataLine = (stage.dmemWrapper.rspPipe 0).dataLine

/--
The leftovers in the response pipe are behind everything that is looked at: a
valid response has the same line in its stage and in all stages before it, and
a line in the cache or a write under way means that a read has been served.
-/
structure Settled (stage : MemStage) (rest : Leftovers) : Prop where
  valid :
    ∀ response,
      (rest.rspPipe response).valid =
        (stage.dmemWrapper.rspPipe response).valid
  data :
    ∀ response,
      (stage.dmemWrapper.rspPipe response).valid = true →
      ∀ earlier,
        earlier ≤ response →
        (rest.rspPipe earlier).dataLine =
          (stage.dmemWrapper.rspPipe earlier).dataLine
  loadLine :
    stage.dcache.state = .loadLine →
    ∀ response,
      (rest.rspPipe response).dataLine =
        (stage.dmemWrapper.rspPipe response).dataLine
  cached :
    ∀ set,
      (stage.dcache.cacheMem set).valid = true → stage.SameFirst rest
  written :
    ∀ request,
      (stage.dmemWrapper.reqPipe request).valid = true →
      (stage.dmemWrapper.reqPipe request).we = true →
      stage.SameFirst rest

/-- The cache does not notice settled leftovers. -/
theorem Settled.cacheBlind (settled : stage.Settled rest) :
    stage.CacheBlind rest exeToMem := by
  have sameValid : (rest.rspPipe 4).valid = stage.dmemResponse.valid :=
    settled.valid 4
  constructor
  · change
      stage.dcache.ready (stage.dcacheRequest exeToMem) (rest.rspPipe 4) =
        stage.dcache.ready (stage.dcacheRequest exeToMem) stage.dmemResponse
    simp only [Dcache.ready, sameValid]
  · have sameReady :
        (stage.withLeftovers rest).dmemWrapper.reqReady =
          stage.dmemWrapper.reqReady := by
      simp only [DmemWrapper.reqReady, withLeftovers, settled.valid]
    simp only [dmemRequest, sameReady, dcacheRequest_withLeftovers]
    rfl
  · have sameState :
        stage.dcache.nextState (stage.dcacheRequest exeToMem)
            (rest.rspPipe 4) =
          stage.dcache.nextState (stage.dcacheRequest exeToMem)
            stage.dmemResponse := by
      simp only [Dcache.nextState, sameValid]
    have sameLine :
        stage.dcache.lineD (stage.dcacheRequest exeToMem)
            (rest.rspPipe 4) =
          stage.dcache.lineD (stage.dcacheRequest exeToMem)
            stage.dmemResponse := by
      simp only [Dcache.lineD]
      split
      · rfl
      · rfl
      · rename_i loads
        rw [settled.loadLine loads 4]
        rfl
    simp only [Dcache.clock, sameState, sameLine]

section Moves

variable (moves : after.rspPipe = stage.rspPipeD rest)
include moves

/-- The first stage holds the same line after a read. -/
theorem sameFirst_of_served
    (served :
      stage.dmemWrapper.served.valid = true ∧
          stage.dmemWrapper.served.we = false ∨
        stage.SameFirst rest) :
    (stage.clock exeToMem input).SameFirst after := by
  have loaded :
      after.rspPipe 0 =
        (stage.withLeftovers rest).dmemWrapper.rspPipeLoad stage.memory := by
    rw [moves]
    rfl
  have sameServed :
      (stage.withLeftovers rest).dmemWrapper.served =
        stage.dmemWrapper.served :=
    rfl
  change
    (after.rspPipe 0).dataLine =
      (stage.dmemWrapper.rspPipeLoad stage.memory).dataLine
  rw [loaded, DmemWrapper.rspPipeLoad_dataLine,
    DmemWrapper.rspPipeLoad_dataLine, sameServed]
  by_cases reads :
      stage.dmemWrapper.served.valid = true ∧
        stage.dmemWrapper.served.we = false
  · rw [if_pos reads, if_pos reads]
  · rw [if_neg reads, if_neg reads]
    exact served.resolve_left reads

/-- The later stages move on. -/
theorem rspPipe_succ (response : Fin 4) :
    after.rspPipe response.succ = rest.rspPipe response.castSucc ∧
      (stage.clock exeToMem input).dmemWrapper.rspPipe response.succ =
        stage.dmemWrapper.rspPipe response.castSucc := by
  rw [moves]
  exact
    ⟨DmemWrapper.rspPipe_succ (stage.withLeftovers rest).dmemWrapper
        (stage.dmemRequest exeToMem) stage.memory response,
      DmemWrapper.rspPipe_succ _ _ _ response⟩

/-- The stages go on having the same valid bits. -/
theorem sameValid_clock
    (settled : stage.Settled rest)
    (response : Fin 5) :
    (after.rspPipe response).valid =
      ((stage.clock exeToMem input).dmemWrapper.rspPipe response).valid := by
  cases response using Fin.cases with
  | zero =>
      have loaded :
          after.rspPipe 0 =
            (stage.withLeftovers rest).dmemWrapper.rspPipeLoad
              stage.memory := by
        rw [moves]
        rfl
      change
        (after.rspPipe 0).valid =
          (stage.dmemWrapper.rspPipeLoad stage.memory).valid
      rw [loaded, DmemWrapper.rspPipeLoad_valid,
        DmemWrapper.rspPipeLoad_valid]
      rfl
  | succ response =>
      obtain ⟨shifted, shiftedToo⟩ := rspPipe_succ moves response
      rw [shifted, shiftedToo]
      exact settled.valid response.castSucc

/-- If a stage and all before it have the same lines, the same is true one
stage further on. -/
theorem sameLines_succ
    {response : Fin 4}
    (same :
      ∀ earlier,
        earlier ≤ response.castSucc →
        (rest.rspPipe earlier).dataLine =
          (stage.dmemWrapper.rspPipe earlier).dataLine)
    (earlier : Fin 5)
    (before : earlier ≤ response.succ) :
    (after.rspPipe earlier).dataLine =
      ((stage.clock exeToMem input).dmemWrapper.rspPipe
        earlier).dataLine := by
  cases earlier using Fin.cases with
  | zero =>
      exact sameFirst_of_served moves (.inr (same 0 (Fin.zero_le _)))
  | succ earlier =>
      obtain ⟨shifted, shiftedToo⟩ := rspPipe_succ moves earlier
      rw [shifted, shiftedToo]
      exact same earlier.castSucc (Fin.succ_le_succ_iff.mp before)

/-- A valid response goes on having the same line in its stage and in all
stages before it. -/
theorem sameData_clock
    (settled : stage.Settled rest)
    (response : Fin 5)
    (valid :
      ((stage.clock exeToMem input).dmemWrapper.rspPipe response).valid =
        true)
    (earlier : Fin 5)
    (before : earlier ≤ response) :
    (after.rspPipe earlier).dataLine =
      ((stage.clock exeToMem input).dmemWrapper.rspPipe
        earlier).dataLine := by
  cases response using Fin.cases with
  | zero =>
      obtain rfl := Fin.le_zero_iff.mp before
      change (stage.dmemWrapper.rspPipeLoad stage.memory).valid = true
        at valid
      rw [DmemWrapper.rspPipeLoad_valid] at valid
      apply sameFirst_of_served moves
      cases writes : stage.dmemWrapper.served.we with
      | false => exact .inl ⟨valid, rfl⟩
      | true => exact .inr (settled.written 4 valid writes)
  | succ response =>
      rw [(rspPipe_succ moves response).2] at valid
      exact
        sameLines_succ moves (settled.data response.castSucc valid) earlier
          before

omit moves in
/-- A miss is answered by a valid response. -/
theorem answered_of_loadLine
    {dcache : Dcache}
    {request : DcacheRequest}
    {response : MemResponse}
    (loads : dcache.nextState request response = .loadLine) :
    response.valid = true := by
  simp only [Dcache.nextState] at loads
  split at loads
  · split at loads <;> cases loads
  · split at loads
    · assumption
    · cases loads
  · cases loads

omit moves in
/-- A line in the cache after the edge means that a read has been served. -/
theorem sameFirst_of_cached
    (settled : stage.Settled rest)
    (set : BitVec 4)
    (valid :
      ((stage.clock exeToMem input).dcache.cacheMem set).valid = true) :
    stage.SameFirst rest := by
  change
    (Function.update stage.dcache.cacheMem
      (Dcache.index (stage.dcacheRequest exeToMem).addr)
      (stage.dcache.lineD (stage.dcacheRequest exeToMem)
        stage.dmemResponse) set).valid = true at valid
  rw [Function.update_apply] at valid
  split at valid
  · simp only [Dcache.lineD] at valid
    split at valid
    · split at valid <;> exact settled.cached _ valid
    · exact settled.cached _ valid
    · rename_i loads
      exact settled.loadLine loads 0
  · exact settled.cached set valid

omit moves in
/-- So does a write that the cache asks for. -/
theorem sameFirst_of_write
    (settled : stage.Settled rest)
    (writes : (stage.dmemRequest exeToMem).we = true) :
    stage.SameFirst rest := by
  simp only [dmemRequest, Dcache.memReq] at writes
  split at writes
  · split at writes
    · rename_i hits
      simp only [Dcache.hit, Bool.and_eq_true] at hits
      exact settled.cached _ hits.1.2.1
    · cases writes
  · split at writes <;> cases writes
  · cases writes

/-- Settled leftovers stay settled. -/
theorem settled_clock (settled : stage.Settled rest) :
    (stage.clock exeToMem input).Settled after where
  valid := sameValid_clock moves settled
  data := sameData_clock moves settled
  loadLine := by
    intro loads response
    change
      stage.dcache.nextState (stage.dcacheRequest exeToMem)
          stage.dmemResponse =
        .loadLine at loads
    have same :=
      settled.data 4 (answered_of_loadLine loads)
    cases response using Fin.cases with
    | zero =>
        exact sameFirst_of_served moves (.inr (same 0 (Fin.zero_le _)))
    | succ response =>
        exact
          sameLines_succ moves
            (fun earlier _ => same earlier (Fin.le_last earlier))
            response.succ (Fin.le_refl _)
  cached set valid :=
    sameFirst_of_served moves (.inr (sameFirst_of_cached settled set valid))
  written := by
    intro request valid writes
    apply sameFirst_of_served moves
    refine .inr ?_
    cases request using Fin.cases with
    | zero => exact sameFirst_of_write settled writes
    | succ request =>
        have shifted :
            (stage.clock exeToMem input).dmemWrapper.reqPipe request.succ =
              stage.dmemWrapper.reqPipe request.castSucc :=
          DmemWrapper.reqPipe_succ _ _ _ request
        rw [shifted] at valid writes
        exact settled.written request.castSucc valid writes

end Moves

end MemStage

end Tartaruga
