import Tartaruga.Package
import Mathlib.Data.List.FinRange

namespace Tartaruga

/-!
# Reorder buffer

The sixteen-entry reorder buffer.  One cycle applies allocation, write-back,
commit and flush to `robD` in textual order; the commit outputs and the hazard
search read `robQ` only.
-/

/-- Registers of the reorder buffer. -/
structure Rob where
  robQ : Fin 16 → RobEntry
  headPtrQ : RobIdx
  tailPtrQ : RobIdx

/-- What decode presents for allocation. -/
structure RobAlloc where
  validDecode : Bool
  pc : Bus32
  instr : Bus32
  rdAddr : RegAddr
  writeEnable : Bool
  storeToMem : Bool
  kanataId : Nat
  deriving Repr, DecidableEq

/-- What write-back presents. -/
structure RobWb where
  robEntryCommit : RobIdx
  validWb : Bool
  result : Bus32
  newPc : Bus32
  branchTaken : Bool
  storeBufferIdx : StoreBufferIdx
  deriving Repr, DecidableEq

/-- The commit outputs. -/
structure RobCommit where
  valid : Bool
  pc : Bus32
  instr : Bus32
  rdAddr : RegAddr
  result : Bus32
  writeEnable : Bool
  storeToMem : Bool
  newPc : Bus32
  branchTaken : Bool
  kanataId : Nat
  storeBufferIdx : StoreBufferIdx
  deriving Repr, DecidableEq

/-- The outputs of one port of the hazard search. -/
structure RobHazard where
  hazard : Bool
  robEntry : RobIdx
  completed : Bool
  result : Bus32
  deriving Repr, DecidableEq

namespace Rob

/--
Reset clears both pointers and every field except the store-buffer index,
which keeps whatever it held.
-/
def reset (rob : Rob) : Rob where
  robQ := fun slot =>
    { RobEntry.zero with storeBufferIdx := (rob.robQ slot).storeBufferIdx }
  headPtrQ := 0
  tailPtrQ := 0

/-- The next allocation would reach a head that is still occupied. -/
def robFull (rob : Rob) : Bool :=
  (rob.tailPtrQ + 1 == rob.headPtrQ) && (rob.robQ rob.headPtrQ).valid

/-- The oldest entry is occupied and completed. -/
def commitValid (rob : Rob) : Bool :=
  (rob.robQ rob.headPtrQ).valid && (rob.robQ rob.headPtrQ).completed

/-- The commit outputs; all zero in a cycle without a commit. -/
def commit (rob : Rob) : RobCommit :=
  let head := rob.robQ rob.headPtrQ
  if rob.commitValid then
    { valid := true
      pc := head.pc
      instr := head.instr
      rdAddr := head.addrRd
      result := head.result
      writeEnable := head.writeEnable
      storeToMem := head.storeToMem
      newPc := head.newPc
      branchTaken := head.branchTaken
      kanataId := head.kanataId
      storeBufferIdx := head.storeBufferIdx }
  else
    { valid := false
      pc := 0
      instr := 0
      rdAddr := 0
      result := 0
      writeEnable := false
      storeToMem := false
      newPc := 0
      branchTaken := false
      kanataId := 0
      storeBufferIdx := 0 }

/-- The committing entry is a taken branch or jump. -/
def flush (rob : Rob) : Bool :=
  rob.commitValid && (rob.robQ rob.headPtrQ).branchTaken

/-- New data from decode. -/
def afterAlloc (rob : Rob) (alloc : RobAlloc) : Fin 16 → RobEntry :=
  if alloc.validDecode then
    Function.update rob.robQ rob.tailPtrQ
      { rob.robQ rob.tailPtrQ with
        valid := true
        pc := alloc.pc
        instr := alloc.instr
        addrRd := alloc.rdAddr
        writeEnable := alloc.writeEnable
        storeToMem := alloc.storeToMem
        completed := false
        kanataId := alloc.kanataId }
  else
    rob.robQ

/-- The write-back names an occupied entry. -/
def acceptsWb (rob : Rob) (wb : RobWb) : Bool :=
  wb.validWb && (rob.robQ wb.robEntryCommit).valid

/-- Update from write-back, on top of the allocation. -/
def afterWb
    (rob : Rob)
    (alloc : RobAlloc)
    (wb : RobWb) :
    Fin 16 → RobEntry :=
  if rob.acceptsWb wb then
    Function.update (rob.afterAlloc alloc) wb.robEntryCommit
      { rob.afterAlloc alloc wb.robEntryCommit with
        completed := true
        result := wb.result
        newPc := wb.newPc
        branchTaken := wb.branchTaken
        storeBufferIdx := wb.storeBufferIdx }
  else
    rob.afterAlloc alloc

/-- The committing entry is marked free. -/
def afterCommit
    (rob : Rob)
    (alloc : RobAlloc)
    (wb : RobWb) :
    Fin 16 → RobEntry :=
  if rob.commitValid then
    Function.update (rob.afterWb alloc wb) rob.headPtrQ
      { rob.afterWb alloc wb rob.headPtrQ with valid := false }
  else
    rob.afterWb alloc wb

/-- Next value of the entries: a taken branch frees all of them. -/
def robD
    (rob : Rob)
    (alloc : RobAlloc)
    (wb : RobWb) :
    Fin 16 → RobEntry :=
  if rob.flush then
    fun slot => { rob.afterCommit alloc wb slot with valid := false }
  else
    rob.afterCommit alloc wb

/-- The flush names the store-buffer slot of every store it removes. -/
def discardStoreBuffer
    (rob : Rob)
    (alloc : RobAlloc)
    (wb : RobWb)
    (slot : StoreBufferIdx) :
    Bool :=
  rob.flush &&
    (List.finRange 16).any fun index =>
      (rob.afterCommit alloc wb index).valid &&
        (rob.afterCommit alloc wb index).storeToMem &&
        (rob.afterCommit alloc wb index).storeBufferIdx == slot

/-- Next value of the head pointer. -/
def headPtrD (rob : Rob) : RobIdx :=
  if rob.flush then 0
  else if rob.commitValid then rob.headPtrQ + 1
  else rob.headPtrQ

/-- Next value of the tail pointer. -/
def tailPtrD (rob : Rob) (alloc : RobAlloc) : RobIdx :=
  if rob.flush then 0
  else if alloc.validDecode then rob.tailPtrQ + 1
  else rob.tailPtrQ

/-- One clock edge of the reorder buffer. -/
def clock (rob : Rob) (alloc : RobAlloc) (wb : RobWb) : Rob where
  robQ := rob.robD alloc wb
  headPtrQ := rob.headPtrD
  tailPtrQ := rob.tailPtrD alloc

/-- The slot the next allocation takes. -/
def robEntryAlloc (rob : Rob) : RobIdx :=
  rob.tailPtrQ

/-- The named entry survives this cycle, or is allocated in it. -/
def stillAlive
    (rob : Rob)
    (alloc : RobAlloc)
    (wb : RobWb)
    (checkAlive : RobIdx) :
    Bool :=
  (rob.robD alloc wb checkAlive).valid

/-- The search outputs before any entry matched. -/
def noHazard : RobHazard where
  hazard := false
  robEntry := 0
  completed := false
  result := 0

/-- The entry is a pending writer of the source register. -/
def writes (rob : Rob) (rsAddr : RegAddr) (slot : RobIdx) : Bool :=
  (rob.robQ slot).valid && (rob.robQ slot).addrRd == rsAddr &&
    (rob.robQ slot).writeEnable && !((rob.robQ slot).addrRd == 0)

/--
The backward search of one port: from `slot` down to the tail, keeping the
first match (`found_hazard`).  Sixteen rounds reach the tail from anywhere.
-/
def hazardLoop
    (rob : Rob)
    (rsAddr : RegAddr) :
    Nat → RobIdx → RobHazard → RobHazard
  | 0, _, found => found
  | rounds + 1, slot, found =>
      if slot = rob.tailPtrQ then
        found
      else
        hazardLoop rob rsAddr rounds (slot - 1)
          (if rob.writes rsAddr slot && !found.hazard then
            { hazard := true
              robEntry := slot
              completed := (rob.robQ slot).completed
              result := (rob.robQ slot).result }
          else
            found)

/-- One port of the hazard search. -/
def hazard (rob : Rob) (rsAddr : RegAddr) : RobHazard :=
  rob.hazardLoop rsAddr 16 (rob.tailPtrQ - 1) noHazard

end Rob

end Tartaruga
