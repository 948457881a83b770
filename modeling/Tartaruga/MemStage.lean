import Tartaruga.StoreBufferSource
import Tartaruga.DataCacheSource

namespace Tartaruga

/-!
# Memory stage

The store buffer, the data cache and the memory wrapper as the memory stage
wires them together.
-/

/-- Registers of the memory stage, with the memory behind it. -/
structure MemStage where
  storeBuffer : StoreBuffer
  dcache : Dcache
  dmemWrapper : DmemWrapper
  memory : Memory

/-- The signals the memory stage receives besides its pipeline register. -/
structure MemInput where
  stillAlive : Bool
  commitedStoreBuffer : Bool
  commitedStoreBufferIdx : StoreBufferIdx
  discardStoreBuffer : Fin 4 → Bool

namespace MemStage

/-- Reset of the memory stage; the memory keeps its contents. -/
def reset (stage : MemStage) : MemStage where
  storeBuffer := .reset
  dcache := .reset
  dmemWrapper := stage.dmemWrapper.reset
  memory := stage.memory

/-- The instruction in the stage is a load. -/
def isLoad (exeToMem : ExeToMem) : Bool :=
  exeToMem.instr.wbOrigin == .mem && exeToMem.valid

/-- The instruction in the stage is a store. -/
def isStore (exeToMem : ExeToMem) : Bool :=
  exeToMem.instr.storeToMem && exeToMem.valid

/-- The store buffer presents a store to the cache. -/
def sbRspValid (stage : MemStage) : Bool :=
  stage.storeBuffer.rspValid

/-- The store buffer holds the address of the stage. -/
def bypassFromSb (stage : MemStage) (exeToMem : ExeToMem) : Bool :=
  stage.storeBuffer.bypass exeToMem.result

/-- A load and a buffered store want the cache in the same cycle. -/
def isCollision (stage : MemStage) (exeToMem : ExeToMem) : Bool :=
  isLoad exeToMem && stage.sbRspValid && !stage.bypassFromSb exeToMem

/-- The address shown to the cache. -/
def dcacheAddr (stage : MemStage) (exeToMem : ExeToMem) : Bus32 :=
  if stage.sbRspValid then stage.storeBuffer.addrOut else exeToMem.result

/-- The request shown to the cache. -/
def dcacheRequest (stage : MemStage) (exeToMem : ExeToMem) : DcacheRequest where
  addr := stage.dcacheAddr exeToMem
  dataWr := stage.storeBuffer.dataWr
  we := stage.sbRspValid
  valid := isLoad exeToMem || stage.sbRspValid

/-- The response presented to the cache. -/
def dmemResponse (stage : MemStage) : MemResponse :=
  stage.dmemWrapper.response

/-- The cache answers in this cycle. -/
def dcacheReady (stage : MemStage) (exeToMem : ExeToMem) : Bool :=
  stage.dcache.ready (stage.dcacheRequest exeToMem) stage.dmemResponse

/-- The request the cache presents to the memory. -/
def dmemRequest (stage : MemStage) (exeToMem : ExeToMem) : MemRequest :=
  stage.dcache.memReq (stage.dcacheRequest exeToMem)
    stage.dmemWrapper.reqReady

/-- The stage holds the pipeline. -/
def stall (stage : MemStage) (exeToMem : ExeToMem) : Bool :=
  (isLoad exeToMem && !stage.dcacheReady exeToMem) ||
    stage.isCollision exeToMem ||
    (isStore exeToMem && !stage.storeBuffer.reqReady)

/-- An instruction that does not access memory. -/
def validNoMem (exeToMem : ExeToMem) : Bool :=
  exeToMem.valid && !(exeToMem.instr.wbOrigin == .mem) &&
    exeToMem.instr.storeToMem == false

/-- A store that finds room in the store buffer. -/
def validStore (stage : MemStage) (exeToMem : ExeToMem) : Bool :=
  exeToMem.valid && exeToMem.instr.storeToMem == true &&
    stage.storeBuffer.reqReady

/-- A load answered by the store buffer. -/
def validLoadBypass (stage : MemStage) (exeToMem : ExeToMem) : Bool :=
  exeToMem.valid && exeToMem.instr.wbOrigin == .mem &&
    stage.bypassFromSb exeToMem

/-- A load answered by the cache. -/
def validLoadDcache (stage : MemStage) (exeToMem : ExeToMem) : Bool :=
  exeToMem.valid && exeToMem.instr.wbOrigin == .mem &&
    stage.dcacheReady exeToMem && !stage.bypassFromSb exeToMem &&
    !stage.isCollision exeToMem

/-- The value written back. -/
def wbResult (stage : MemStage) (exeToMem : ExeToMem) : Bus32 :=
  match exeToMem.instr.wbOrigin with
  | .alu => exeToMem.result
  | .mem =>
      if stage.validLoadBypass exeToMem then
        stage.storeBuffer.dataRd exeToMem.result
      else
        stage.dcache.dataRd (stage.dcacheRequest exeToMem)
  | .pc4 => exeToMem.instr.pc + 4
  | .mul => 0

/-- Combinational output towards write-back. -/
def memToWbD (stage : MemStage) (exeToMem : ExeToMem) : MemToWb where
  instr := exeToMem.instr
  valid :=
    validNoMem exeToMem ||
      (stage.validLoadBypass exeToMem || stage.validLoadDcache exeToMem) ||
      stage.validStore exeToMem
  result := stage.wbResult exeToMem
  branchTaken := exeToMem.branchTaken
  branchedPc := if exeToMem.branchTaken then exeToMem.result else 0
  storeBufferIdx := stage.storeBuffer.storeBufferIdx

/-- The store-buffer inputs of this cycle. -/
def storeBufferInput
    (stage : MemStage)
    (exeToMem : ExeToMem)
    (input : MemInput) :
    StoreBufferInput where
  data := exeToMem.dataRs2
  addr := exeToMem.result
  reqValid := isStore exeToMem && input.stillAlive
  rspReady := stage.dcacheReady exeToMem
  commit := input.commitedStoreBuffer
  idxCommit := input.commitedStoreBufferIdx
  discard := input.discardStoreBuffer

/-- One clock edge of the memory stage. -/
def clock
    (stage : MemStage)
    (exeToMem : ExeToMem)
    (input : MemInput) :
    MemStage where
  storeBuffer :=
    stage.storeBuffer.clock (stage.storeBufferInput exeToMem input)
  dcache :=
    stage.dcache.clock (stage.dcacheRequest exeToMem) stage.dmemResponse
  dmemWrapper :=
    stage.dmemWrapper.clock (stage.dmemRequest exeToMem) stage.memory
  memory := stage.dmemWrapper.memoryD stage.memory

end MemStage

end Tartaruga
