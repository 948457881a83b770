import Tartaruga.DataCacheSource

namespace Tartaruga

/-!
# Fetch

The program counter, the two-way instruction cache and the pipelined
instruction memory behind it.  A 512-bit line is kept as its sixteen words.
-/

/-- A cache line of sixteen instruction words. -/
abbrev InstrLine := Fin 16 → Bus32

/-- One way of the instruction cache. -/
structure IcacheLine where
  valid : Bool
  tag : BitVec 22
  data : InstrLine

/-- Registers of the instruction cache. -/
structure Icache where
  cacheMem : BitVec 4 → Fin 2 → IcacheLine
  lruCounter : BitVec 4 → BitVec 1
  pendingReq : Bool

/-- A line presented by the instruction memory. -/
structure InstrResponse where
  valid : Bool
  addr : Bus32
  line : InstrLine
  deriving Inhabited

namespace Icache

/-- The set a program counter maps to. -/
def index (pc : Bus32) : BitVec 4 := pc.extractLsb' 6 4

/-- The tag of a program counter. -/
def tagIn (pc : Bus32) : BitVec 22 := pc.extractLsb' 10 22

/-- The position of a program counter in its line. -/
def wordOffset (pc : Bus32) : Fin 16 := (pc.extractLsb' 2 4).toFin

/-- The address of the line that holds a program counter. -/
def lineAligned (pc : Bus32) : Bus32 := pc.extractLsb' 6 26 ++ 0#6

/-- The instruction shown on a miss. -/
def nopInstrHex : Bus32 := 0x00000033

/-- Reset value of the cache.  The last iteration of the reset loop leaves one
in every replacement counter. -/
def reset : Icache where
  cacheMem := fun _ _ => { valid := false, tag := 0, data := fun _ => 0 }
  lruCounter := fun _ => 1
  pendingReq := false

/-- A way of the selected set holds the requested line. -/
def hitWay (cache : Icache) (pc : Bus32) (way : Fin 2) : Bool :=
  (cache.cacheMem (index pc) way).valid &&
    (cache.cacheMem (index pc) way).tag == tagIn pc

/-- Some way holds the requested line. -/
def hit (cache : Icache) (pc : Bus32) : Bool :=
  cache.hitWay pc 0 || cache.hitWay pc 1

/-- The last way of the search loop that holds the requested line. -/
def hitWaySel (cache : Icache) (pc : Bus32) : Fin 2 :=
  if cache.hitWay pc 1 then 1 else 0

/-- The instruction word shown to decode. -/
def instr (cache : Icache) (pc : Bus32) : Bus32 :=
  if cache.hit pc then
    (cache.cacheMem (index pc) (cache.hitWaySel pc)).data (wordOffset pc)
  else
    nopInstrHex

/-- A line is requested while it misses and nothing is pending. -/
def reqValid (cache : Icache) (pc : Bus32) : Bool :=
  !cache.hit pc && !cache.pendingReq

/-- The way a response replaces in its set. -/
def lruWay (cache : Icache) (rspIndex : BitVec 4) : Fin 2 :=
  if cache.lruCounter rspIndex == 1 then 1 else 0

/--
The counter update of a hit.  Both arms of the loop read the old counter, so
the ageing arm never runs and the counter is cleared.
-/
def lruAfterHit (cache : Icache) (pc : Bus32) : BitVec 4 → BitVec 1 :=
  if cache.hit pc then
    let old := cache.lruCounter (index pc)
    Function.update cache.lruCounter (index pc)
      ((List.finRange 2).foldl
        (fun scheduled way =>
          if way = cache.hitWaySel pc then 0
          else if (cache.lruCounter (index pc)).ult old then
            cache.lruCounter (index pc) + 1
          else scheduled)
        (cache.lruCounter (index pc)))
  else
    cache.lruCounter

/-- The counter update of a fill, scheduled after that of a hit. -/
def lruAfterFill
    (cache : Icache)
    (pc : Bus32)
    (response : InstrResponse) :
    BitVec 4 → BitVec 1 :=
  if response.valid then
    let rspIndex := index response.addr
    Function.update (cache.lruAfterHit pc) rspIndex
      ((List.finRange 2).foldl
        (fun scheduled way =>
          if way = cache.lruWay rspIndex then 0
          else if (cache.lruCounter rspIndex).ult 1 then
            cache.lruCounter rspIndex + 1
          else scheduled)
        (cache.lruAfterHit pc rspIndex))
  else
    cache.lruAfterHit pc

/-- The lines after a response has been installed by its own address. -/
def cacheMemD
    (cache : Icache)
    (response : InstrResponse) :
    BitVec 4 → Fin 2 → IcacheLine :=
  if response.valid then
    let rspIndex := index response.addr
    Function.update cache.cacheMem rspIndex
      (Function.update (cache.cacheMem rspIndex) (cache.lruWay rspIndex)
        { valid := true
          tag := tagIn response.addr
          data := response.line })
  else
    cache.cacheMem

/-- One clock edge of the instruction cache. -/
def clock
    (cache : Icache)
    (pc : Bus32)
    (reqReady : Bool)
    (response : InstrResponse) :
    Icache where
  cacheMem := cache.cacheMemD response
  lruCounter := cache.lruAfterFill pc response
  pendingReq :=
    if cache.reqValid pc && reqReady then true
    else if response.valid then false
    else cache.pendingReq

end Icache

/-- One stage of the instruction request pipe. -/
structure InstrRequest where
  valid : Bool
  addr : Bus32
  deriving Inhabited

/-- Registers of the instruction memory wrapper. -/
structure ImemWrapper where
  reqPipe : Fin 5 → InstrRequest
  rspPipe : Fin 5 → InstrResponse

namespace ImemWrapper

/-- Reset value of the wrapper. -/
def reset : ImemWrapper where
  reqPipe := fun _ => { valid := false, addr := 0 }
  rspPipe := fun _ => { valid := false, addr := 0, line := fun _ => 0 }

/-- Nothing is in either pipe. -/
def reqReady (wrapper : ImemWrapper) : Bool :=
  (List.finRange 5).all (fun stage => !(wrapper.rspPipe stage).valid) &&
    (List.finRange 5).all (fun stage => !(wrapper.reqPipe stage).valid)

/-- The response presented in this cycle. -/
def response (wrapper : ImemWrapper) : InstrResponse :=
  wrapper.rspPipe 4

/-- The sixteen reads of one line, most significant word first. -/
def lineReads (memory : Memory) (addr : Bus32) : List Bus32 :=
  [ memory.readMem (addr + 12 + 48),
    memory.readMem (addr + 8 + 48),
    memory.readMem (addr + 4 + 48),
    memory.readMem (addr + 48),
    memory.readMem (addr + 12 + 32),
    memory.readMem (addr + 8 + 32),
    memory.readMem (addr + 4 + 32),
    memory.readMem (addr + 32),
    memory.readMem (addr + 12 + 16),
    memory.readMem (addr + 8 + 16),
    memory.readMem (addr + 4 + 16),
    memory.readMem (addr + 16),
    memory.readMem (addr + 12),
    memory.readMem (addr + 8),
    memory.readMem (addr + 4),
    memory.readMem addr ]

/-- The line assembled from its reads: word zero is the last one listed. -/
def readLine (memory : Memory) (addr : Bus32) : InstrLine :=
  fun word => (lineReads memory addr).getD (15 - word.val) 0

/-- A response stage takes over its predecessor when it is free. -/
def rspPipeShift (wrapper : ImemWrapper) (stage : Fin 5) : InstrResponse :=
  if (wrapper.rspPipe stage).valid then
    wrapper.rspPipe stage
  else
    wrapper.rspPipe (stage - 1)

/--
The valid bit that the last assignment to a response stage leaves: the last
stage is cleared when its response is taken, a stage whose successor is free
is cleared, and a free stage takes its predecessor's bit before that.
-/
def rspValidShift
    (wrapper : ImemWrapper)
    (rspReady : Bool)
    (stage : Fin 5) :
    Bool :=
  let valid := (wrapper.rspPipe stage).valid
  if stage = 0 then
    if (wrapper.rspPipe 1).valid then valid else false
  else if stage = 4 then
    if valid then !rspReady else (wrapper.rspPipe 3).valid
  else if !valid then
    (wrapper.rspPipe (stage - 1)).valid
  else if !(wrapper.rspPipe (stage + 1)).valid then
    false
  else
    valid

/-- Next value of the response pipe. -/
def rspPipeD
    (wrapper : ImemWrapper)
    (rspReady : Bool)
    (memory : Memory)
    (stage : Fin 5) :
    InstrResponse :=
  if stage = 0 then
    if (wrapper.reqPipe 4).valid then
      { valid := true
        addr := (wrapper.reqPipe 4).addr
        line := readLine memory (wrapper.reqPipe 4).addr }
    else
      { wrapper.rspPipe 0 with
        valid := wrapper.rspValidShift rspReady 0 }
  else
    { wrapper.rspPipeShift stage with
      valid := wrapper.rspValidShift rspReady stage }

/-- One clock edge of the wrapper. -/
def clock
    (wrapper : ImemWrapper)
    (request : InstrRequest)
    (rspReady : Bool)
    (memory : Memory) :
    ImemWrapper where
  reqPipe := fun stage =>
    if stage = 0 then request else wrapper.reqPipe (stage - 1)
  rspPipe := wrapper.rspPipeD rspReady memory

end ImemWrapper

end Tartaruga
