import Tartaruga.CoreEvaluation
import Tartaruga.KanataSource

namespace Tartaruga

/-!
# Well-formed traces

What a trace has to look like, and when the trace of the core does: in the
first call every stage reports a bubble with the identifier of the first
instruction, so that the tracker forgets that it has introduced it.
-/

namespace Kanata

/-- The stage that is open for an identifier after some records. -/
def openStage (id : Nat) (records : List KanataRecord) :
    Option KanataStages :=
  records.foldl
    (fun isOpen record =>
      match record with
      | .start other stage => if other = id then some stage else isOpen
      | .finish other _ => if other = id then none else isOpen
      | _ => isOpen)
    none

/-- A record about an identifier stands at a place of the trace. -/
def AboutAt (records : List KanataRecord) (id place : Nat) : Prop :=
  records[place]?.bind KanataRecord.id? = some id

/-- A trace in which every instruction has one life. -/
structure WellFormed (records : List KanataRecord) : Prop where
  /-- Nothing stands in front of an introduction. -/
  introduced :
    ∀ id place earlier,
      records[place]? = some (.introduce id) →
      AboutAt records id earlier →
      place ≤ earlier
  /-- What is told about an instruction stands behind its introduction. -/
  known :
    ∀ id place,
      AboutAt records id place →
      ∃ introduction, introduction ≤ place ∧
        records[introduction]? = some (.introduce id)
  /-- A stage is closed by the record for the stage that is open. -/
  closes :
    ∀ id stage place,
      records[place]? = some (.finish id stage) →
      openStage id (records.take place) = some stage
  /-- Nothing stands behind a retirement. -/
  retired :
    ∀ id flushed place later,
      records[place]? = some (.retire id flushed) →
      AboutAt records id later →
      later ≤ place

section Calls

variable {kanata : Kanata} {call second : KanataCall}
  {calls : List KanataCall}

/-- A call adds to what is written. -/
theorem written_printKanata (kanata : Kanata) (call : KanataCall) :
    ∃ added, (kanata.printKanata call).written = kanata.written ++ added := by
  unfold printKanata
  split
  · exact ⟨_, rfl⟩
  · exact ⟨_, rfl⟩

/-- So do any number of calls. -/
theorem written_foldl (kanata : Kanata) (calls : List KanataCall) :
    ∃ added,
      (calls.foldl printKanata kanata).written = kanata.written ++ added := by
  induction calls generalizing kanata with
  | nil =>
      exact ⟨[], (List.append_nil _).symm⟩
  | cons call later inductionHypothesis =>
      obtain ⟨here, first⟩ := written_printKanata kanata call
      obtain ⟨there, rest⟩ := inductionHypothesis (kanata.printKanata call)
      refine ⟨here ++ there, ?_⟩
      rw [List.foldl_cons, rest, first, List.append_assoc]

/-- Every stage reports the identifier of the first instruction. -/
structure Blank (call : KanataCall) : Prop where
  idFetch : call.idFetch = 0
  idDecode : call.idDecode = 0
  idExecute : call.idExecute = 0
  idMemory : call.idMemory = 0
  idWriteback : call.idWriteback = 0
  flush : call.flush = false

/-- The first call introduces that instruction, and forgets it. -/
theorem printKanata_blank (blank : Blank call) :
    init.printKanata call =
      { written := [.cycle, .introduce 0, .start 0 .fetch]
        instructionStage := [(0, .none)] } := by
  simp [printKanata, init, records, updated, fetchRecords, decodeRecords,
    executeRecords, memoryRecords, writebackRecords, commitRecords, commits,
    moved, enters, noted, InstructionStage.stageOf, InstructionStage.assign,
    blank.idFetch, blank.idDecode, blank.idExecute, blank.idMemory,
    blank.idWriteback, blank.flush]

/-- A call introduces what is fetched unless it is known to be. -/
theorem printKanata_introduces
    (noFlush : call.flush = false)
    (unknown : kanata.instructionStage.stageOf call.idFetch ≠ .fetch) :
    ∃ added,
      (kanata.printKanata call).written =
        kanata.written ++ .cycle :: .introduce call.idFetch :: added := by
  simp [printKanata, noFlush, records, fetchRecords, unknown]

/-- Nothing is wrong with an empty trace. -/
theorem wellFormed_nil : WellFormed [] where
  introduced _ _ _ introduces := by cases introduces
  known _ _ about := by cases about
  closes _ _ _ finishes := by cases finishes
  retired _ _ _ _ retires := by cases retires

/-- The trace of the first call alone is well-formed. -/
theorem wellFormed_first :
    WellFormed [.cycle, .introduce 0, .start 0 .fetch] where
  introduced id place earlier introduces about := by
    cases earlier with
    | zero => cases about
    | succ earlier =>
        have second : place = 1 := by
          rcases place with _ | _ | _ | place <;> simp_all
        omega
  known id place about := by
    rcases place with _ | _ | _ | place
    · cases about
    · exact
        ⟨1, Nat.le_refl 1, by simpa [AboutAt, KanataRecord.id?] using about⟩
    · exact
        ⟨1, Nat.le_succ 1, by simpa [AboutAt, KanataRecord.id?] using about⟩
    · cases about
  closes id stage place finishes := by
    rcases place with _ | _ | _ | place <;> simp at finishes
  retired id flushed place later retires := by
    rcases place with _ | _ | _ | place <;> simp at retires

/-- A second call that reports the first instruction in fetch introduces it
again. -/
theorem not_wellFormed_second
    (blank : Blank call)
    (noFlush : second.flush = false)
    (sameId : second.idFetch = 0) :
    ¬WellFormed (trace (call :: second :: calls)) := by
  intro wellFormed
  have unknown :
      (init.printKanata call).instructionStage.stageOf second.idFetch ≠
        .fetch := by
    rw [printKanata_blank blank, sameId]
    decide
  obtain ⟨added, again⟩ := printKanata_introduces noFlush unknown
  obtain ⟨rest, more⟩ :=
    written_foldl ((init.printKanata call).printKanata second) calls
  rw [trace, List.foldl_cons, List.foldl_cons, more, again,
    printKanata_blank blank, sameId] at wellFormed
  have ordered := wellFormed.introduced 0 4 1 rfl rfl
  exact absurd ordered (by decide)

end Calls

end Kanata

namespace Core

variable (powerUp : Core)

/-- The calls of a simulation: at some edges in reset, which acts at once, and
at the edges of some cycles after it. -/
def kanataCalls (edges cycles : Nat) : List KanataCall :=
  List.replicate edges powerUp.reset.kanataCall ++
    (List.range cycles).map fun cycle => (powerUp.run cycle).kanataCall

/-- In reset all identifiers are zero. -/
theorem blank_reset : Kanata.Blank powerUp.reset.kanataCall where
  idFetch := rfl
  idDecode := rfl
  idExecute := rfl
  idMemory := rfl
  idWriteback := rfl
  flush := rfl

/-- The pipeline waits for the first line of the program. -/
theorem stall_reset :
    powerUp.reset.datapath.stall powerUp.reset.answer = true := by
  have misses : powerUp.reset.answer.valid = false := rfl
  simp [Datapath.stall, misses]

/-- So the first instruction is still being fetched after one cycle. -/
theorem idFetch_afterFirst : (powerUp.run 1).kanataCall.idFetch = 0 := by
  change powerUp.reset.datapath.kanataIdCounterD powerUp.reset.answer = 0
  rw [Datapath.kanataIdCounterD, powerUp.stall_reset]
  rfl

/-- And nothing can have been committed. -/
theorem flush_afterFirst : (powerUp.run 1).kanataCall.flush = false := by
  by_contra flushes
  change ¬(powerUp.run 1).datapath.rob.commit.branchTaken = false at flushes
  rw [Rob.commit_branchTaken, Bool.not_eq_false] at flushes
  obtain ⟨valid, -⟩ :=
    Rob.commitValid_iff.mp (Rob.commitValid_of_flush flushes)
  obtain ⟨-, -, allocated | before⟩ := Rob.robD_valid.mp valid
  · have accepts : powerUp.reset.datapath.allocates powerUp.reset.answer :=
      allocated.1
    have noStall := (Datapath.allocates_iff.mp accepts).1
    rw [powerUp.stall_reset] at noStall
    cases noStall
  · cases before

/-- The trace of a simulation is well-formed exactly as long as it has the
records of one call at most. -/
theorem kanataTrace_wellFormed_iff (edges cycles : Nat) :
    Kanata.WellFormed (Kanata.trace (powerUp.kanataCalls edges cycles)) ↔
      edges + cycles ≤ 1 := by
  have notTwo
      {second : KanataCall}
      {later : List KanataCall}
      (noFlush : second.flush = false)
      (sameId : second.idFetch = 0) :
      ¬Kanata.WellFormed
        (Kanata.trace (powerUp.reset.kanataCall :: second :: later)) :=
    Kanata.not_wellFormed_second powerUp.blank_reset noFlush sameId
  have one : Kanata.trace [powerUp.reset.kanataCall] = _ :=
    congrArg Kanata.written (Kanata.printKanata_blank powerUp.blank_reset)
  have start : (powerUp.run 0).kanataCall = powerUp.reset.kanataCall := rfl
  match edges, cycles with
  | 0, 0 =>
      exact iff_of_true Kanata.wellFormed_nil (by decide)
  | 1, 0 =>
      refine iff_of_true ?_ (by decide)
      rw [kanataCalls, List.replicate_one, List.range_zero, List.map_nil,
        List.append_nil, one]
      exact Kanata.wellFormed_first
  | 0, 1 =>
      refine iff_of_true ?_ (by decide)
      rw [kanataCalls, List.replicate_zero, List.nil_append, List.range_one,
        List.map_singleton, start, one]
      exact Kanata.wellFormed_first
  | 0, cycles + 2 =>
      refine iff_of_false ?_ (by omega)
      rw [kanataCalls, List.range_succ_eq_map, List.range_succ_eq_map]
      exact notTwo powerUp.flush_afterFirst powerUp.idFetch_afterFirst
  | 1, cycles + 1 =>
      refine iff_of_false ?_ (by omega)
      rw [kanataCalls, List.range_succ_eq_map]
      exact notTwo rfl rfl
  | edges + 2, cycles =>
      refine iff_of_false ?_ (by omega)
      exact notTwo rfl rfl

/-- The trace of two cycles introduces the first instruction twice. -/
theorem kanataTrace_not_wellFormed :
    Kanata.trace ((withProgram []).kanataCalls 0 2) =
        [ .cycle, .introduce 0, .start 0 .fetch,
          .cycle, .introduce 0, .start 0 .fetch ] ∧
      ¬Kanata.WellFormed
        (Kanata.trace ((withProgram []).kanataCalls 0 2)) := by
  refine ⟨by decide +kernel, ?_⟩
  exact Kanata.not_wellFormed_second (withProgram []).blank_reset
    (withProgram []).flush_afterFirst (withProgram []).idFetch_afterFirst

end Core

end Tartaruga
