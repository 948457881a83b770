import Tartaruga.Decoder
import Tartaruga.Execute
import Tartaruga.RobSource
import Tartaruga.MemStage
import Tartaruga.FetchSource

namespace Tartaruga

/-!
# Datapath

The pipeline of the core.  `Datapath` holds every register of the core except
those of the instruction cache and its memory, and takes the cache's answer of
the cycle as its input; `Core` closes the loop with the real cache.
-/

/-- The instruction cache's answer for the current program counter. -/
structure FetchAnswer where
  instr : Bus32
  valid : Bool
  deriving Repr, DecidableEq

/-- Every register of the core behind the instruction cache. -/
structure Datapath where
  pcQ : Bus32
  kanataIdCounter : Nat
  instructionQ : Bus32
  pcDecode : Bus32
  validDecode : Bool
  idDecode : Nat
  regfile : Regfile
  decodeToExeQ : DecodeToExe
  exe : Exe
  exeToMemQ : ExeToMem
  mem : MemStage
  memToWbQ : MemToWb
  rob : Rob

namespace Datapath

/-- Reset of every register that has a reset value. -/
def reset (core : Datapath) : Datapath where
  pcQ := 0
  kanataIdCounter := 0
  instructionQ := 0
  pcDecode := 0
  validDecode := false
  idDecode := 0
  regfile := core.regfile.reset
  decodeToExeQ := .zero
  exe := .reset
  exeToMemQ := .zero
  mem := core.mem.reset
  memToWbQ := .zero
  rob := core.rob.reset

/-- The decoded instruction. -/
def decoded (core : Datapath) : InstrData :=
  decoder core.pcDecode core.instructionQ core.rob.robEntryAlloc core.idDecode

/-- The commit outputs of this cycle. -/
def commit (core : Datapath) : RobCommit :=
  core.rob.commit

/-- The hazard search for the first source. -/
def hazardRs1 (core : Datapath) : RobHazard :=
  core.rob.hazard core.decoded.addrRs1

/-- The hazard search for the second source. -/
def hazardRs2 (core : Datapath) : RobHazard :=
  core.rob.hazard core.decoded.addrRs2

/-- Output of the execute stage. -/
def exeToMemD (core : Datapath) : ExeToMem :=
  core.exe.exeToMemD core.decodeToExeQ

/-- The execute stage holds its input. -/
def stallFromExe (core : Datapath) : Bool :=
  core.exe.stall core.decodeToExeQ

/-- Output of the memory stage. -/
def memToWbD (core : Datapath) : MemToWb :=
  core.mem.memToWbD core.exeToMemQ

/-- The memory stage holds the pipeline. -/
def stallFromMem (core : Datapath) : Bool :=
  core.mem.stall core.exeToMemQ

/-- The pending writer's result is at the output of execute. -/
def forwardsFromExe (core : Datapath) (hazard : RobHazard) : Bool :=
  hazard.robEntry == core.exeToMemD.instr.robIdx &&
    core.exeToMemD.valid && !(core.exeToMemD.instr.wbOrigin == .mem)

/-- The pending writer's result is at the output of memory. -/
def forwardsFromMem (core : Datapath) (hazard : RobHazard) : Bool :=
  hazard.robEntry == core.memToWbD.instr.robIdx && core.memToWbD.valid

/-- The operand of one source: register file, reorder buffer or a forward. -/
def operand
    (core : Datapath)
    (hazard : RobHazard)
    (regfileData : Bus32) :
    Bus32 :=
  if hazard.hazard then
    if hazard.completed then hazard.result
    else if core.forwardsFromExe hazard then core.exeToMemD.result
    else if core.forwardsFromMem hazard then core.memToWbD.result
    else regfileData
  else
    regfileData

/-- The operand of one source is available. -/
def solvedHazard (core : Datapath) (hazard : RobHazard) : Bool :=
  !hazard.hazard || hazard.completed || core.forwardsFromExe hazard ||
    core.forwardsFromMem hazard

/-- The pipeline does not accept the instruction in decode. -/
def stall (core : Datapath) (answer : FetchAnswer) : Bool :=
  ((core.hazardRs1.hazard || core.hazardRs2.hazard) &&
      !(core.solvedHazard core.hazardRs1 &&
        core.solvedHazard core.hazardRs2)) ||
    core.stallFromExe || !answer.valid || core.rob.robFull ||
    core.stallFromMem

/-- Output of the decode stage. -/
def decodeToExeD (core : Datapath) (answer : FetchAnswer) : DecodeToExe where
  instr := core.decoded
  valid :=
    !core.stall answer && core.validDecode && !core.commit.branchTaken
  dataRs1 :=
    core.operand core.hazardRs1 (core.regfile core.decoded.addrRs1)
  dataRs2 :=
    core.operand core.hazardRs2 (core.regfile core.decoded.addrRs2)
  immediate := immediate core.decoded.instr

/-- What decode presents to the reorder buffer. -/
def robAlloc (core : Datapath) (answer : FetchAnswer) : RobAlloc where
  validDecode := (core.decodeToExeD answer).valid
  pc := core.decoded.pc
  instr := core.decoded.instr
  rdAddr := core.decoded.addrRd
  writeEnable := core.decoded.writeEnable
  storeToMem := core.decoded.storeToMem
  kanataId := core.decoded.kanataId

/-- What write-back presents to the reorder buffer. -/
def robWb (core : Datapath) : RobWb where
  robEntryCommit := core.memToWbQ.instr.robIdx
  validWb := core.memToWbQ.valid
  result := core.memToWbQ.result
  newPc := core.memToWbQ.branchedPc
  branchTaken := core.memToWbQ.branchTaken
  storeBufferIdx := core.memToWbQ.storeBufferIdx

/-- The instruction in the memory stage still owns a reorder-buffer entry. -/
def stillAlive (core : Datapath) (answer : FetchAnswer) : Bool :=
  core.rob.stillAlive (core.robAlloc answer) core.robWb
    core.exeToMemQ.instr.robIdx

/-- What the reorder buffer presents to the memory stage. -/
def memInput (core : Datapath) (answer : FetchAnswer) : MemInput where
  stillAlive := core.stillAlive answer
  commitedStoreBuffer := core.commit.storeToMem
  commitedStoreBufferIdx := core.commit.storeBufferIdx
  discardStoreBuffer :=
    core.rob.discardStoreBuffer (core.robAlloc answer) core.robWb

/-- Next value of the program counter. -/
def pcD (core : Datapath) (answer : FetchAnswer) : Bus32 :=
  if !core.stall answer || core.commit.branchTaken then
    if core.commit.branchTaken then core.commit.newPc else core.pcQ + 4
  else
    core.pcQ

/-- Next value of the fetch identifier. -/
def kanataIdCounterD (core : Datapath) (answer : FetchAnswer) : Nat :=
  if !core.stall answer && !core.commit.branchTaken then
    core.kanataIdCounter + 1
  else
    core.kanataIdCounter

/-- Next value of the decode-to-execute register. -/
def decodeToExeNext (core : Datapath) (answer : FetchAnswer) : DecodeToExe :=
  if !core.stall answer then core.decodeToExeD answer
  else if !core.stallFromExe && !core.stallFromMem then nopInstr
  else core.decodeToExeQ

/-- One clock edge of the datapath. -/
def clock (core : Datapath) (answer : FetchAnswer) : Datapath where
  pcQ := core.pcD answer
  kanataIdCounter := core.kanataIdCounterD answer
  instructionQ :=
    if core.commit.branchTaken then 0
    else if !core.stall answer then answer.instr
    else core.instructionQ
  pcDecode :=
    if core.commit.branchTaken then 0
    else if !core.stall answer then core.pcQ
    else core.pcDecode
  validDecode :=
    if core.commit.branchTaken then false
    else if !core.stall answer then answer.valid
    else core.validDecode
  idDecode :=
    if core.commit.branchTaken then 0
    else if !core.stall answer then core.kanataIdCounter
    else core.idDecode
  regfile :=
    core.regfile.clock core.commit.rdAddr core.commit.result
      core.commit.writeEnable
  decodeToExeQ := core.decodeToExeNext answer
  exe := core.exe.clock core.decodeToExeQ
  exeToMemQ :=
    if !core.stallFromMem then core.exeToMemD else core.exeToMemQ
  mem := core.mem.clock core.exeToMemQ (core.memInput answer)
  memToWbQ := core.memToWbD
  rob := core.rob.clock (core.robAlloc answer) core.robWb

end Datapath

/-- The whole core. -/
structure Core where
  datapath : Datapath
  icache : Icache
  imemWrapper : ImemWrapper

namespace Core

/-- Reset of the whole core. -/
def reset (core : Core) : Core where
  datapath := core.datapath.reset
  icache := .reset
  imemWrapper := .reset

/-- The instruction cache's answer in this cycle. -/
def answer (core : Core) : FetchAnswer where
  instr := core.icache.instr core.datapath.pcQ
  valid := core.icache.hit core.datapath.pcQ

/-- The line request of this cycle. -/
def instrRequest (core : Core) : InstrRequest where
  valid := core.icache.reqValid core.datapath.pcQ
  addr := Icache.lineAligned core.datapath.pcQ

/--
One clock edge of the core.  A line is read from the memory as it was before
the edge.
-/
def clock (core : Core) : Core where
  datapath := core.datapath.clock core.answer
  icache :=
    core.icache.clock core.datapath.pcQ core.imemWrapper.reqReady
      core.imemWrapper.response
  imemWrapper :=
    core.imemWrapper.clock core.instrRequest true core.datapath.mem.memory

end Core

end Tartaruga
