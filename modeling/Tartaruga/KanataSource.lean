import Tartaruga.Datapath

namespace Tartaruga

/-!
# The pipeline trace

`print_kanata` of the simulator, which is called at every clock edge, and the
tracker behind it: a map from identifiers to the stage where they were seen
last.  What is written to the trace is kept as its list of records.
-/

/-- `Kanata_Stages` -/
inductive KanataStages where
  | fetch
  | decode
  | execute
  | memory
  | writeback
  | commit
  | none
  deriving Repr, DecidableEq

/-- The letter of a stage in the trace. -/
def KanataStages.letter : KanataStages → String
  | .fetch => "F"
  | .decode => "D"
  | .execute => "E"
  | .memory => "M"
  | .writeback => "W"
  | .commit => ""
  | .none => ""

/-- A line of the trace. -/
inductive KanataRecord where
  | cycle
  | introduce (id : Nat)
  | start (id : Nat) (stage : KanataStages)
  | finish (id : Nat) (stage : KanataStages)
  | label (id : Nat) (pc instr : Bus32)
  | retire (id : Nat) (flushed : Bool)
  deriving Repr, DecidableEq

namespace KanataRecord

/-- The identifier that a line is about. -/
def id? : KanataRecord → Option Nat
  | .cycle => none
  | .introduce id => some id
  | .start id _ => some id
  | .finish id _ => some id
  | .label id _ _ => some id
  | .retire id _ => some id

/-- The line as it is written. -/
def text : KanataRecord → String
  | .cycle => "C\t1"
  | .introduce id => "I\t" ++ toString id ++ "\t" ++ toString id ++ "\t0"
  | .start id stage => "S\t" ++ toString id ++ "\t0\t" ++ stage.letter
  | .finish id stage => "E\t" ++ toString id ++ "\t0\t" ++ stage.letter
  | .label id pc instr =>
      "L\t" ++ toString id ++ "\t0\t0x" ++ pc.toHex ++ " 0x" ++ instr.toHex
  | .retire id flushed =>
      "R\t" ++ toString id ++ "\t0\t" ++ if flushed then "1" else "0"

end KanataRecord

/-- `std::map<int, Kanata_Stages>`, in the order of the identifiers. -/
abbrev InstructionStage := List (Nat × KanataStages)

namespace InstructionStage

/-- The stage of an identifier; `NONE` if there is none. -/
def stageOf (stages : InstructionStage) (id : Nat) : KanataStages :=
  (stages.lookup id).getD .none

/-- Set the stage of an identifier. -/
def assign
    (id : Nat)
    (stage : KanataStages) :
    InstructionStage → InstructionStage
  | [] => [(id, stage)]
  | (other, held) :: rest =>
      if id < other then (id, stage) :: (other, held) :: rest
      else if id = other then (id, stage) :: rest
      else (other, held) :: assign id stage rest

/-- Remove an identifier. -/
def erase (stages : InstructionStage) (id : Nat) : InstructionStage :=
  stages.filter fun entry => !(entry.1 == id)

end InstructionStage

/-- The arguments of `print_kanata`. -/
structure KanataCall where
  validFetch : Bool
  validDecode : Bool
  validExecute : Bool
  validMemory : Bool
  validWriteback : Bool
  validCommit : Bool
  idFetch : Nat
  idDecode : Nat
  idExecute : Nat
  idMemory : Nat
  idWriteback : Nat
  idCommit : Nat
  pcDecode : Bus32
  instrDecode : Bus32
  flush : Bool
  deriving Repr, DecidableEq

/-- The tracker, and what has been written after the header. -/
structure Kanata where
  written : List KanataRecord
  instructionStage : InstructionStage
  deriving Repr, DecidableEq

namespace Kanata

/-- `init_kanata` -/
def init : Kanata where
  written := []
  instructionStage := []

/-- What a flush writes about an entry of the map. -/
def flushed (idCommit : Nat) : Nat × KanataStages → List KanataRecord
  | (id, stage) =>
      let commits := stage == .writeback && id == idCommit
      if !(stage == .commit) && !(stage == .none) && !commits then
        [.finish id stage, .retire id true]
      else if commits then
        [.finish id .writeback, .retire id false]
      else if stage == .none then
        [.retire id true]
      else
        []

/-- A stage that reports an instruction of the map which it did not report
before. -/
def enters
    (previous stage : KanataStages)
    (valid : Bool) :
    Bool :=
  !(previous == stage) && valid && !(previous == .none)

/-- What a stage writes about an instruction that enters it. -/
def moved
    (previous stage left : KanataStages)
    (valid : Bool)
    (id : Nat) :
    List KanataRecord :=
  if enters previous stage valid then
    [.finish id left, .start id stage]
  else
    []

/-- How a stage updates the map. -/
def noted
    (previous stage : KanataStages)
    (valid : Bool)
    (id : Nat)
    (stages : InstructionStage) :
    InstructionStage :=
  if valid && !(previous == .none) then stages.assign id stage
  else if previous == .none then stages.assign id .none
  else stages

section Call

variable (stages : InstructionStage) (call : KanataCall)

/-- The records of the fetch stage. -/
def fetchRecords : List KanataRecord :=
  if !(stages.stageOf call.idFetch == .fetch) then
    [.introduce call.idFetch, .start call.idFetch .fetch]
  else
    []

/-- The records of the decode stage. -/
def decodeRecords : List KanataRecord :=
  let previous := stages.stageOf call.idDecode
  moved previous .decode .fetch call.validDecode call.idDecode ++
    if enters previous .decode call.validDecode then
      [.label call.idDecode call.pcDecode call.instrDecode]
    else
      []

/-- The records of the execute stage. -/
def executeRecords : List KanataRecord :=
  moved (stages.stageOf call.idExecute) .execute .decode call.validExecute
    call.idExecute

/-- The records of the memory stage. -/
def memoryRecords : List KanataRecord :=
  moved (stages.stageOf call.idMemory) .memory .execute call.validMemory
    call.idMemory

/-- The records of the write-back stage. -/
def writebackRecords : List KanataRecord :=
  moved (stages.stageOf call.idWriteback) .writeback .memory
    call.validWriteback call.idWriteback

/-- The map has the instruction that commits. -/
def commits : Bool :=
  enters (stages.stageOf call.idCommit) .commit call.validCommit

/-- The records of a commit. -/
def commitRecords : List KanataRecord :=
  if commits stages call then
    [.finish call.idCommit .writeback, .retire call.idCommit false]
  else
    []

/-- What a call without a flush writes. -/
def records : List KanataRecord :=
  fetchRecords stages call ++ decodeRecords stages call ++
    executeRecords stages call ++ memoryRecords stages call ++
    writebackRecords stages call ++ commitRecords stages call

/-- The map after a call without a flush.  The stages that the updates look at
were sampled before all of them. -/
def updated : InstructionStage :=
  let kept :=
    if commits stages call then stages.erase call.idCommit else stages
  noted (stages.stageOf call.idWriteback) .writeback call.validWriteback
    call.idWriteback
    (noted (stages.stageOf call.idMemory) .memory call.validMemory
      call.idMemory
      (noted (stages.stageOf call.idExecute) .execute call.validExecute
        call.idExecute
        (noted (stages.stageOf call.idDecode) .decode call.validDecode
          call.idDecode
          (kept.assign call.idFetch .fetch))))

end Call

/-- `print_kanata` -/
def printKanata (kanata : Kanata) (call : KanataCall) : Kanata :=
  if call.flush then
    { written :=
        kanata.written ++ .cycle ::
          kanata.instructionStage.flatMap (flushed call.idCommit)
      instructionStage := [] }
  else
    { written :=
        kanata.written ++ .cycle :: records kanata.instructionStage call
      instructionStage := updated kanata.instructionStage call }

/-- The trace of a sequence of calls. -/
def trace (calls : List KanataCall) : List KanataRecord :=
  (calls.foldl printKanata init).written

end Kanata

/-- What the core passes to `print_kanata` at a clock edge. -/
def Core.kanataCall (core : Core) : KanataCall where
  validFetch := core.answer.valid
  validDecode := core.datapath.validDecode
  validExecute := core.datapath.decodeToExeQ.valid
  validMemory := core.datapath.exeToMemQ.valid
  validWriteback := core.datapath.memToWbQ.valid
  validCommit := core.datapath.commit.valid
  idFetch := core.datapath.kanataIdCounter
  idDecode := core.datapath.idDecode
  idExecute := core.datapath.decodeToExeQ.instr.kanataId
  idMemory := core.datapath.exeToMemQ.instr.kanataId
  idWriteback := core.datapath.memToWbQ.instr.kanataId
  idCommit := core.datapath.commit.kanataId
  pcDecode := core.datapath.pcDecode
  instrDecode := core.datapath.decoded.instr
  flush := core.datapath.commit.branchTaken

end Tartaruga
