import Tartaruga.Package
import Mathlib.Data.List.FinRange

namespace Tartaruga

/-!
# Data cache and its memory

The unified memory behind `read_mem` and `write_mem`, the pipelined wrapper in
front of it, and the write-through data cache.  A 128-bit line is kept as its
four words.
-/

/-- The word array of the simulator, `1024 * 1024 * 256` words long. -/
abbrev Memory := BitVec 28 → Bus32

namespace Memory

/-- The signed word index of the address lies inside the array. -/
def inRange (addr : Bus32) : Bool :=
  decide (addr.toNat < 2 ^ 30)

/-- The position of an in-range address in the array. -/
def index (addr : Bus32) : BitVec 28 :=
  addr.extractLsb' 2 28

/-- Read one word; an address outside the array reads zero. -/
def readMem (memory : Memory) (addr : Bus32) : Bus32 :=
  if inRange addr then memory (index addr) else 0

/-- Write one word; an address outside the array is ignored. -/
def writeMem (memory : Memory) (addr data : Bus32) : Memory :=
  if inRange addr then Function.update memory (index addr) data else memory

end Memory

/-- A cache line of four words. -/
abbrev Line := Fin 4 → Bus32

namespace Line

/-- The four words that start at an address, in increasing order. -/
def read (memory : Memory) (addr : Bus32) : Line :=
  fun word => memory.readMem (addr + BitVec.ofNat 32 (word.val * 4))

/-- Write the four words that start at an address, in increasing order. -/
def write (memory : Memory) (addr : Bus32) (line : Line) : Memory :=
  (List.finRange 4).foldl
    (fun current word =>
      current.writeMem (addr + BitVec.ofNat 32 (word.val * 4)) (line word))
    memory

end Line

/-- A request as it enters the memory wrapper. -/
structure MemRequest where
  valid : Bool
  addr : Bus32
  we : Bool
  dataWr : Line
  deriving Inhabited

/-- One stage of the response pipe. -/
structure MemResponse where
  valid : Bool
  addr : Bus32
  dataLine : Line
  deriving Inhabited

/-- Registers of the memory wrapper: two shift registers of `LAT` stages. -/
structure DmemWrapper where
  reqPipe : Fin 5 → MemRequest
  rspPipe : Fin 5 → MemResponse

namespace DmemWrapper

/-- Reset clears the request pipe and leaves the response pipe alone. -/
def reset (wrapper : DmemWrapper) : DmemWrapper where
  reqPipe := fun _ => { valid := false, addr := 0, we := false, dataWr := fun _ => 0 }
  rspPipe := wrapper.rspPipe

/-- Nothing is in either pipe. -/
def reqReady (wrapper : DmemWrapper) : Bool :=
  (List.finRange 5).all (fun stage => !(wrapper.reqPipe stage).valid) &&
    (List.finRange 5).all (fun stage => !(wrapper.rspPipe stage).valid)

/-- The request that meets the memory in this cycle. -/
def served (wrapper : DmemWrapper) : MemRequest :=
  wrapper.reqPipe 4

/-- The response presented in this cycle. -/
def response (wrapper : DmemWrapper) : MemResponse :=
  wrapper.rspPipe 4

/-- Next value of the first response stage.  Address and data are kept when
nothing is loaded into them. -/
def rspPipeLoad (wrapper : DmemWrapper) (memory : Memory) : MemResponse :=
  let request := wrapper.served
  if request.valid then
    { valid := true
      addr := request.addr
      dataLine :=
        if request.we then (wrapper.rspPipe 0).dataLine
        else Line.read memory request.addr }
  else
    { wrapper.rspPipe 0 with valid := false }

/-- One clock edge of the wrapper. -/
def clock
    (wrapper : DmemWrapper)
    (request : MemRequest)
    (memory : Memory) :
    DmemWrapper where
  reqPipe := fun stage =>
    if stage = 0 then request else wrapper.reqPipe (stage - 1)
  rspPipe := fun stage =>
    if stage = 0 then wrapper.rspPipeLoad memory
    else wrapper.rspPipe (stage - 1)

/-- The memory after the edge. -/
def memoryD (wrapper : DmemWrapper) (memory : Memory) : Memory :=
  let request := wrapper.served
  if request.valid && request.we then
    Line.write memory request.addr request.dataWr
  else
    memory

end DmemWrapper

/-- One set of the direct-mapped data cache. -/
structure DcacheLine where
  valid : Bool
  tag : BitVec 24
  data : Line
  deriving Inhabited

/-- States of the data cache. -/
inductive DcacheState where
  | idle
  | miss
  | loadLine
  deriving Repr, DecidableEq

/-- Registers of the data cache. -/
structure Dcache where
  state : DcacheState
  cacheMem : BitVec 4 → DcacheLine

/-- What the memory stage presents to the data cache. -/
structure DcacheRequest where
  addr : Bus32
  dataWr : Bus32
  we : Bool
  valid : Bool
  deriving Repr, DecidableEq

namespace Dcache

/-- The set an address maps to. -/
def index (addr : Bus32) : BitVec 4 := addr.extractLsb' 4 4

/-- The tag of an address. -/
def tagIn (addr : Bus32) : BitVec 24 := addr.extractLsb' 8 24

/-- The position of an address in its line. -/
def wordOffset (addr : Bus32) : Fin 4 := (addr.extractLsb' 2 2).toFin

/-- The address of the line that holds an address. -/
def lineAligned (addr : Bus32) : Bus32 := addr.extractLsb' 4 28 ++ 0#4

/-- Reset value of the data cache. -/
def reset : Dcache where
  state := .idle
  cacheMem := fun _ => { valid := false, tag := 0, data := fun _ => 0 }

/-- The set selected by the request. -/
def selected (cache : Dcache) (request : DcacheRequest) : DcacheLine :=
  cache.cacheMem (index request.addr)

/-- The selected set holds the requested line. -/
def hit (cache : Dcache) (request : DcacheRequest) : Bool :=
  (cache.selected request).valid &&
    (cache.selected request).tag == tagIn request.addr

/-- The request is answered, or there is none, in this cycle. -/
def ready
    (cache : Dcache)
    (request : DcacheRequest)
    (response : MemResponse) :
    Bool :=
  cache.state == .idle &&
    (!request.valid || (cache.hit request && !request.we) ||
      (cache.hit request && request.we && response.valid))

/-- Next state of the cache. -/
def nextState
    (cache : Dcache)
    (request : DcacheRequest)
    (response : MemResponse) :
    DcacheState :=
  match cache.state with
  | .idle => if request.valid && !cache.hit request then .miss else .idle
  | .miss => if response.valid then .loadLine else .miss
  | .loadLine => .idle

/-- The word returned to a load that hits. -/
def dataRd (cache : Dcache) (request : DcacheRequest) : Bus32 :=
  match cache.state with
  | .idle =>
      if request.valid && cache.hit request && !request.we then
        (cache.selected request).data (wordOffset request.addr)
      else
        0
  | _ => 0

/-- The selected line with the word of the request replaced. -/
def written (cache : Dcache) (request : DcacheRequest) : Line :=
  Function.update (cache.selected request).data
    (wordOffset request.addr) request.dataWr

/--
The request presented to the memory.  A store that hits presents its line in
every cycle until it is answered; a miss presents its read only when the
memory is ready.
-/
def memReq
    (cache : Dcache)
    (request : DcacheRequest)
    (memReqReady : Bool) :
    MemRequest :=
  match cache.state with
  | .idle =>
      if request.valid && cache.hit request && request.we then
        { valid := true
          addr := lineAligned request.addr
          we := true
          dataWr := cache.written request }
      else
        { valid := false, addr := 0, we := false, dataWr := fun _ => 0 }
  | .miss =>
      if memReqReady then
        { valid := true
          addr := lineAligned request.addr
          we := false
          dataWr := fun _ => 0 }
      else
        { valid := false, addr := 0, we := false, dataWr := fun _ => 0 }
  | .loadLine =>
      { valid := false, addr := 0, we := false, dataWr := fun _ => 0 }

/-- Next value of the selected set. -/
def lineD
    (cache : Dcache)
    (request : DcacheRequest)
    (response : MemResponse) :
    DcacheLine :=
  match cache.state with
  | .idle =>
      if request.valid && cache.hit request && request.we then
        { cache.selected request with data := cache.written request }
      else
        cache.selected request
  | .miss => cache.selected request
  | .loadLine =>
      { valid := true
        tag := tagIn request.addr
        data := response.dataLine }

/-- One clock edge of the data cache. -/
def clock
    (cache : Dcache)
    (request : DcacheRequest)
    (response : MemResponse) :
    Dcache where
  state := cache.nextState request response
  cacheMem :=
    Function.update cache.cacheMem (index request.addr)
      (cache.lineD request response)

end Dcache

end Tartaruga
