import Tartaruga.Package

namespace Tartaruga

/-!
# Store buffer

The four-entry ring between the memory stage and the data cache.  The source
declares its pointers with the width of a reorder-buffer index but always
reduces them modulo the buffer size, so they are slot indices here.
-/

/-- One slot of the store buffer. -/
structure StoreBufferEntry where
  data : Bus32
  addr : Bus32
  valid : Bool
  committed : Bool
  discarded : Bool
  deriving Repr, DecidableEq, Inhabited

/-- Registers of the store buffer. -/
structure StoreBuffer where
  storeBufferQ : Fin 4 → StoreBufferEntry
  headPtrQ : StoreBufferIdx
  tailPtrQ : StoreBufferIdx

/-- The inputs of one cycle. -/
structure StoreBufferInput where
  data : Bus32
  addr : Bus32
  reqValid : Bool
  rspReady : Bool
  commit : Bool
  idxCommit : StoreBufferIdx
  discard : Fin 4 → Bool

namespace StoreBuffer

/-- Reset value of the store buffer. -/
def reset : StoreBuffer where
  storeBufferQ := fun _ => {
    data := 0
    addr := 0
    valid := false
    committed := false
    discarded := false
  }
  headPtrQ := 0
  tailPtrQ := 0

/-- The oldest slot. -/
def headEntry (buffer : StoreBuffer) : StoreBufferEntry :=
  buffer.storeBufferQ buffer.headPtrQ

/-- Room for one more store. -/
def reqReady (buffer : StoreBuffer) : Bool :=
  !((buffer.tailPtrQ == buffer.headPtrQ) && buffer.headEntry.valid)

/-- The oldest slot holds a committed store. -/
def rspValid (buffer : StoreBuffer) : Bool :=
  buffer.headEntry.valid && buffer.headEntry.committed

/-- Address presented to the data cache. -/
def addrOut (buffer : StoreBuffer) : Bus32 :=
  if buffer.rspValid then buffer.headEntry.addr else 0

/-- Data presented to the data cache. -/
def dataWr (buffer : StoreBuffer) : Bus32 :=
  if buffer.rspValid then buffer.headEntry.data else 0

/-- The slot an insertion in this cycle takes. -/
def storeBufferIdx (buffer : StoreBuffer) : StoreBufferIdx :=
  buffer.tailPtrQ

/-- A store is inserted in this cycle. -/
def inserts (buffer : StoreBuffer) (input : StoreBufferInput) : Bool :=
  input.reqValid && buffer.reqReady

/-- The data cache accepts the oldest slot in this cycle. -/
def handsOver (buffer : StoreBuffer) (input : StoreBufferInput) : Bool :=
  buffer.rspValid && input.rspReady

/-- The oldest slot is dropped because a flush discarded it. -/
def drops (buffer : StoreBuffer) : Bool :=
  !buffer.rspValid && (buffer.headEntry.valid && buffer.headEntry.discarded)

/-- A new entry goes to the tail slot. -/
def afterInsert
    (buffer : StoreBuffer)
    (input : StoreBufferInput) :
    Fin 4 → StoreBufferEntry :=
  if buffer.inserts input then
    Function.update buffer.storeBufferQ buffer.tailPtrQ
      { data := input.data
        addr := input.addr
        valid := true
        committed := false
        discarded := false }
  else
    buffer.storeBufferQ

/-- The oldest slot is freed when it is handed over or dropped. -/
def afterDequeue
    (buffer : StoreBuffer)
    (input : StoreBufferInput) :
    Fin 4 → StoreBufferEntry :=
  if buffer.handsOver input || buffer.drops then
    Function.update (buffer.afterInsert input) buffer.headPtrQ
      { buffer.afterInsert input buffer.headPtrQ with valid := false }
  else
    buffer.afterInsert input

/-- The commit pulse marks the slot it names. -/
def afterCommit
    (buffer : StoreBuffer)
    (input : StoreBufferInput) :
    Fin 4 → StoreBufferEntry :=
  if input.commit then
    Function.update (buffer.afterDequeue input) input.idxCommit
      { buffer.afterDequeue input input.idxCommit with committed := true }
  else
    buffer.afterDequeue input

/-- Next value of the slots: the discard mask marks every slot it names. -/
def storeBufferD
    (buffer : StoreBuffer)
    (input : StoreBufferInput)
    (slot : Fin 4) :
    StoreBufferEntry :=
  if input.discard slot then
    { buffer.afterCommit input slot with discarded := true }
  else
    buffer.afterCommit input slot

/-- Next value of the head pointer. -/
def headPtrD (buffer : StoreBuffer) (input : StoreBufferInput) : StoreBufferIdx :=
  if buffer.handsOver input || buffer.drops then buffer.headPtrQ + 1
  else buffer.headPtrQ

/-- Next value of the tail pointer. -/
def tailPtrD (buffer : StoreBuffer) (input : StoreBufferInput) : StoreBufferIdx :=
  if buffer.inserts input then buffer.tailPtrQ + 1
  else buffer.tailPtrQ

/-- One clock edge of the store buffer. -/
def clock (buffer : StoreBuffer) (input : StoreBufferInput) : StoreBuffer where
  storeBufferQ := buffer.storeBufferD input
  headPtrQ := buffer.headPtrD input
  tailPtrQ := buffer.tailPtrD input

/--
The backward search for a load address: the slot where it breaks off, if any.
Four rounds reach the tail from anywhere.
-/
def searchLoop
    (buffer : StoreBuffer)
    (addr : Bus32) :
    Nat → StoreBufferIdx → Option StoreBufferIdx
  | 0, _ => none
  | rounds + 1, slot =>
      if slot = buffer.tailPtrQ then
        none
      else if (buffer.storeBufferQ slot).valid &&
          (buffer.storeBufferQ slot).addr == addr then
        some slot
      else
        searchLoop buffer addr rounds (slot - 1)

/-- The slot whose data a load of this address takes. -/
def bypassSlot (buffer : StoreBuffer) (addr : Bus32) : Option StoreBufferIdx :=
  buffer.searchLoop addr 4 (buffer.tailPtrQ - 1)

/-- A load of this address takes its data from the store buffer. -/
def bypass (buffer : StoreBuffer) (addr : Bus32) : Bool :=
  (buffer.bypassSlot addr).isSome

/-- The data a load of this address takes. -/
def dataRd (buffer : StoreBuffer) (addr : Bus32) : Bus32 :=
  match buffer.bypassSlot addr with
  | some slot => (buffer.storeBufferQ slot).data
  | none => 0

end StoreBuffer

end Tartaruga
