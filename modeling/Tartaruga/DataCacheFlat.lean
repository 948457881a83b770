import Tartaruga.BitFields
import Tartaruga.CoreEvaluation
import Tartaruga.DataCacheMiss

namespace Tartaruga

/-!
# The data cache as one flat memory

The cache writes through.  What the memory is going to hold once the requests
in its pipe have met it is, word for word, what the acknowledged writes left;
the cache holds copies of that.  This needs an empty pipe whenever a request
misses, since a response carries no name.
-/

namespace Dcache

variable {addr : Bus32} {tag : BitVec 24} {set : BitVec 4}

/-- The address of the line with a tag in a set. -/
def lineAddr (tag : BitVec 24) (set : BitVec 4) : Bus32 :=
  (tag ++ set) ++ 0#4

/-- Tag and set of an address name its line. -/
theorem lineAddr_eq (addr : Bus32) :
    lineAddr (tagIn addr) (index addr) = lineAligned addr := by
  apply BitVec.eq_of_toNat_eq
  simp only [lineAddr, tagIn, index, lineAligned, BitFields.toNat_append_eq,
    BitFields.toNat_extractLsb'_eq, BitVec.toNat_ofNat]
  omega

/-- Lines of different sets are different. -/
theorem index_of_lineAddr (same : lineAddr tag set = lineAligned addr) :
    set = index addr := by
  have numbers := congrArg BitVec.toNat same
  have bound := set.isLt
  apply BitVec.eq_of_toNat_eq
  simp only [lineAddr, index, lineAligned, BitFields.toNat_append_eq,
    BitFields.toNat_extractLsb'_eq, BitVec.toNat_ofNat] at numbers ⊢
  omega

/-- The line of an address, in numbers. -/
theorem toNat_lineAligned (addr : Bus32) :
    (lineAligned addr).toNat = addr.toNat / 16 * 16 := by
  have bound := addr.isLt
  simp only [lineAligned, BitFields.toNat_append_eq,
    BitFields.toNat_extractLsb'_eq, BitVec.toNat_ofNat]
  omega

variable (isWord : Memory.IsWord addr)
include isWord

/-- The line of a word lies inside the array. -/
theorem isLine_lineAligned : Line.IsLine (lineAligned addr) := by
  have inside := isWord.inside
  constructor <;> rw [toNat_lineAligned] <;> omega

/-- A word stands at its offset in its line. -/
theorem wordAddr_lineAligned :
    Line.wordAddr (lineAligned addr) (wordOffset addr) = addr := by
  have aligned := isWord.aligned
  have offset : (wordOffset addr).val = addr.toNat / 4 % 4 :=
    BitFields.toNat_extractLsb'_eq addr 2 2
  apply BitVec.eq_of_toNat_eq
  rw [(isLine_lineAligned isWord).toNat_wordAddr, toNat_lineAligned, offset]
  omega

end Dcache

namespace Line

variable {memory : Memory} {addr data : Bus32}

/-- Writing a line with one word replaced writes the word. -/
theorem write_update (isWord : Memory.IsWord addr) :
    Line.write memory (Dcache.lineAligned addr)
        (Function.update (Line.read memory (Dcache.lineAligned addr))
          (Dcache.wordOffset addr) data) =
      memory.writeMem addr data := by
  apply Memory.ext_readMem
  intro other isOther
  have isLine := Dcache.isLine_lineAligned isWord
  have isOtherLine := Dcache.isLine_lineAligned isOther
  have here := Dcache.wordAddr_lineAligned isWord
  have there := Dcache.wordAddr_lineAligned isOther
  have written :
      (Line.write memory (Dcache.lineAligned addr)
          (Function.update (Line.read memory (Dcache.lineAligned addr))
            (Dcache.wordOffset addr) data)).readMem
            (Line.wordAddr (Dcache.lineAligned other)
              (Dcache.wordOffset other)) =
        _ :=
    isLine.readMem_write isOtherLine _
  rw [there] at written
  rw [written, Memory.readMem_writeMem isWord isOther]
  have same :=
    isLine.wordAddr_inj isOtherLine (Dcache.wordOffset addr)
      (Dcache.wordOffset other)
  rw [here, there] at same
  by_cases sameLine : Dcache.lineAligned other = Dcache.lineAligned addr
  · rw [if_pos sameLine, Function.update_apply]
    by_cases sameWord : Dcache.wordOffset other = Dcache.wordOffset addr
    · rw [if_pos sameWord, if_pos (same.mpr ⟨sameLine, sameWord⟩)]
    · rw [if_neg sameWord, if_neg fun isAddr => sameWord (same.mp isAddr).2]
      rw [← sameLine]
      exact congrArg memory.readMem there
  · rw [if_neg sameLine, if_neg fun isAddr => sameLine (same.mp isAddr).1]

end Line

namespace DcacheSystem

/-- The memory once the requests in the pipe have met it, oldest first. -/
def pendingMemory (system : DcacheSystem) : Memory :=
  (List.finRange 5).foldr
    (fun stage memory =>
      DmemSystem.served memory (system.dmemWrapper.reqPipe stage))
    system.memory

/-- A new request is the last one to meet it. -/
theorem pendingMemory_clock (system : DcacheSystem) (request : DcacheRequest) :
    (system.clock request).pendingMemory =
      DmemSystem.served system.pendingMemory (system.memRequest request) :=
  rfl

/-- Requests that do not write leave the memory as it is. -/
theorem pendingMemory_eq
    {system : DcacheSystem}
    (noWrite :
      ∀ stage,
        ((system.dmemWrapper.reqPipe stage).valid &&
          (system.dmemWrapper.reqPipe stage).we) = false) :
    system.pendingMemory = system.memory := by
  simp [pendingMemory, List.finRange_succ, DmemSystem.served, noWrite]

/-- Nothing has been asked of the system yet. -/
structure Fresh (system : DcacheSystem) : Prop where
  state : system.dcache.state = .idle
  sets : ∀ set, (system.dcache.cacheMem set).valid = false
  requests : ∀ stage, (system.dmemWrapper.reqPipe stage).valid = false
  responses : ∀ stage, (system.dmemWrapper.rspPipe stage).valid = false

/-- A set holds its line, as the requests so far leave it. -/
def Copies (memory : Memory) (set : BitVec 4) (line : DcacheLine) : Prop :=
  line.valid = true →
  Line.IsLine (Dcache.lineAddr line.tag set) ∧
    line.data = Line.read memory (Dcache.lineAddr line.tag set)

/-- Every valid set holds its line. -/
def Coherent (system : DcacheSystem) : Prop :=
  ∀ set, Copies system.pendingMemory set (system.dcache.cacheMem set)

variable {system : DcacheSystem} {request : DcacheRequest}

/-- A clock edge keeps the copies if it keeps those of the other sets and the
selected set gets one. -/
theorem coherent_clock
    (others :
      ∀ set,
        set ≠ Dcache.index request.addr →
        Copies (system.clock request).pendingMemory set
          (system.dcache.cacheMem set))
    (selected :
      Copies (system.clock request).pendingMemory
        (Dcache.index request.addr)
        (system.dcache.lineD request system.dmemWrapper.response)) :
    (system.clock request).Coherent := by
  intro set
  change
    Copies _ set
      (Function.update system.dcache.cacheMem (Dcache.index request.addr)
        (system.dcache.lineD request system.dmemWrapper.response) set)
  by_cases isSet : set = Dcache.index request.addr
  · rw [isSet, Function.update_self]
    exact selected
  · rw [Function.update_of_ne isSet]
    exact others set isSet

/-- A hit finds the line of the request. -/
theorem Coherent.of_hit
    (coherent : system.Coherent)
    (hits : system.dcache.hit request = true) :
    (system.dcache.selected request).data =
      Line.read system.pendingMemory (Dcache.lineAligned request.addr) := by
  simp only [Dcache.hit, Bool.and_eq_true, beq_iff_eq] at hits
  have line := (coherent (Dcache.index request.addr) hits.1).2
  rw [show (system.dcache.cacheMem (Dcache.index request.addr)).tag =
    Dcache.tagIn request.addr from hits.2, Dcache.lineAddr_eq] at line
  exact line

section Write

variable (coherent : system.Coherent)
  (isWord : Memory.IsWord request.addr)
  (idle : system.dcache.state = .idle)
  (hits : system.dcache.hit request = true)
  (asks : request.valid = true)
  (writes : request.we = true)
include coherent isWord idle hits asks writes

/-- A write that hits is the next to meet the memory. -/
theorem pendingMemory_write :
    (system.clock request).pendingMemory =
      system.pendingMemory.writeMem request.addr request.dataWr := by
  have line := coherent.of_hit hits
  have presented :
      system.memRequest request =
        { valid := true
          addr := Dcache.lineAligned request.addr
          we := true
          dataWr := system.dcache.written request } := by
    simp [memRequest, Dcache.memReq, idle, hits, asks, writes]
  rw [pendingMemory_clock, presented]
  change
    Line.write system.pendingMemory (Dcache.lineAligned request.addr)
      (system.dcache.written request) = _
  rw [Dcache.written, line]
  exact Line.write_update isWord

/-- A write that hits replaces the word in the copy too. -/
theorem Coherent.clock_of_write : (system.clock request).Coherent := by
  have line := coherent.of_hit hits
  have isLine := Dcache.isLine_lineAligned isWord
  have memory :
      (system.clock request).pendingMemory =
        Line.write system.pendingMemory (Dcache.lineAligned request.addr)
          (system.dcache.written request) := by
    rw [pendingMemory_write coherent isWord idle hits asks writes,
      Dcache.written, line, Line.write_update isWord]
  have written :
      system.dcache.lineD request system.dmemWrapper.response =
        { system.dcache.selected request with
          data := system.dcache.written request } := by
    simp [Dcache.lineD, idle, hits, asks, writes]
  apply coherent_clock
  · intro set isOther valid
    obtain ⟨isOtherLine, copy⟩ := coherent set valid
    refine ⟨isOtherLine, ?_⟩
    rw [memory, isLine.read_write isOtherLine, if_neg fun same =>
      isOther (Dcache.index_of_lineAddr same)]
    exact copy
  · intro _
    have sameTag :
        (system.dcache.selected request).tag = Dcache.tagIn request.addr := by
      simp only [Dcache.hit, Bool.and_eq_true, beq_iff_eq] at hits
      exact hits.2
    rw [written, memory]
    simp only [sameTag, Dcache.lineAddr_eq]
    refine ⟨isLine, ?_⟩
    rw [isLine.read_write isLine, if_pos rfl]

end Write

/-- A request that is not a write leaves the pending memory alone. -/
theorem pendingMemory_of_no_write
    (noWrite :
      ((system.memRequest request).valid &&
        (system.memRequest request).we) = false) :
    (system.clock request).pendingMemory = system.pendingMemory := by
  rw [pendingMemory_clock, DmemSystem.served, noWrite,
    if_neg Bool.false_ne_true]

/-- Such a cycle keeps the copies if it does not touch the selected set. -/
theorem Coherent.clock_of_no_write
    (coherent : system.Coherent)
    (noWrite :
      ((system.memRequest request).valid &&
        (system.memRequest request).we) = false)
    (sameLine :
      system.dcache.lineD request system.dmemWrapper.response =
        system.dcache.selected request) :
    (system.clock request).Coherent := by
  have memory := pendingMemory_of_no_write noWrite
  apply coherent_clock
  · intro set _
    rw [memory]
    exact coherent set
  · rw [memory, sameLine]
    exact coherent _

/-- The writes that are acknowledged, applied in order. -/
def ackedD
    (system : DcacheSystem)
    (request : DcacheRequest)
    (acked : Memory) :
    Memory :=
  if request.valid && request.we && system.ready request then
    acked.writeMem request.addr request.dataWr
  else
    acked

/--
The cache and its memory are the memory that the acknowledged writes left, up
to the write that waits for its acknowledgement; between requests the cache is
idle, and a request that misses is fetched.
-/
structure Flat
    (system : DcacheSystem)
    (request : DcacheRequest)
    (acked : Memory) :
    Prop where
  coherent : system.Coherent
  pending :
    system.pendingMemory = acked ∨
      (request.valid = true ∧ request.we = true) ∧
        system.pendingMemory =
          acked.writeMem request.addr request.dataWr
  phase :
    system.dcache.state = .idle ∨
      request.valid = true ∧
        ∃ age, age ≤ 11 ∧ system.Fetching age request.addr

variable {acked : Memory} {next : DcacheRequest}

/-- A system that has not been used is the memory behind it. -/
theorem Fresh.flat (fresh : system.Fresh) (request : DcacheRequest) :
    system.Flat request system.memory where
  coherent := fun set valid => by
    rw [fresh.sets] at valid
    cases valid
  pending := .inl (pendingMemory_eq fun stage => by
    rw [fresh.requests, Bool.false_and])
  phase := .inl fresh.state

section Step

variable (flat : system.Flat request acked)
  (held : request.valid = true → system.ready request = false → next = request)

include flat held in
/-- A request that is not acknowledged stays what it is. -/
theorem Flat.clock_of_waiting
    (waits : request.valid = true)
    (notReady : system.ready request = false)
    (noWrite :
      ((system.memRequest request).valid &&
        (system.memRequest request).we) = false)
    (coherent : (system.clock request).Coherent)
    (phase :
      (system.clock request).dcache.state = .idle ∨
        ∃ age,
          age ≤ 11 ∧ (system.clock request).Fetching age request.addr) :
    (system.clock request).Flat next (system.ackedD request acked) := by
  obtain rfl := held waits notReady
  refine ⟨coherent, ?_, ?_⟩
  · simp only [ackedD, notReady, Bool.and_false, Bool.false_eq_true,
      if_false]
    rw [pendingMemory_of_no_write noWrite]
    exact flat.pending
  · exact phase.imp_right fun fetching => ⟨waits, fetching⟩

include flat held in
/-- The line of a request that missed comes closer, and is installed. -/
theorem Flat.clock_of_fetching
    {age : Nat}
    (isWord : Memory.IsWord request.addr)
    (waits : request.valid = true)
    (bound : age ≤ 11)
    (fetching : system.Fetching age request.addr) :
    (system.clock request).Flat next (system.ackedD request acked) := by
  have notIdle : (system.dcache.state == .idle) = false := by
    rw [fetching.state]
    split <;> rfl
  have notReady : system.ready request = false := by
    rw [ready, Dcache.ready, notIdle, Bool.false_and]
  have noWrite :
      ((system.memRequest request).valid &&
        (system.memRequest request).we) = false := by
    rw [fetching.memRequest_valid bound]
    by_cases first : age = 0
    · rw [(fetching.memRequest_read first rfl).1, Bool.and_false]
    · rw [decide_eq_false first, Bool.false_and]
  have state := fetching.state
  by_cases last : age = 11
  · subst last
    rw [if_pos rfl] at state
    have memory : system.pendingMemory = system.memory := by
      apply pendingMemory_eq
      intro stage
      rw [fetching.requested, decide_eq_false (by omega), Bool.false_and]
    apply flat.clock_of_waiting held waits notReady noWrite
    · apply coherent_clock
      · intro set _
        rw [pendingMemory_of_no_write noWrite]
        exact flat.coherent set
      · intro _
        rw [pendingMemory_of_no_write noWrite, fetching.lineD, memory]
        simp only [Dcache.lineAddr_eq]
        exact ⟨Dcache.isLine_lineAligned isWord, trivial⟩
    · left
      change system.dcache.nextState request _ = _
      simp only [Dcache.nextState, state]
  · rw [if_neg last] at state
    have sameLine :
        system.dcache.lineD request system.dmemWrapper.response =
          system.dcache.selected request := by
      simp only [Dcache.lineD, state]
    apply flat.clock_of_waiting held waits notReady noWrite
      (flat.coherent.clock_of_no_write noWrite sameLine)
    have early : age ≤ 10 := by omega
    exact .inr ⟨age + 1, Nat.succ_le_succ early, fetching.clock early rfl⟩

include flat held in
/-- A write that hits is on its way, acknowledged or not. -/
theorem Flat.clock_of_write
    (isWord : Memory.IsWord request.addr)
    (idle : system.dcache.state = .idle)
    (hits : system.dcache.hit request = true)
    (asks : request.valid = true)
    (writes : request.we = true) :
    (system.clock request).Flat next (system.ackedD request acked) := by
  have memory :
      (system.clock request).pendingMemory =
        acked.writeMem request.addr request.dataWr := by
    rw [pendingMemory_write flat.coherent isWord idle hits asks writes]
    rcases flat.pending with same | ⟨_, ahead⟩
    · rw [same]
    · rw [ahead]
      simp [Memory.writeMem, isWord.inRange]
  have state : (system.clock request).dcache.state = .idle := by
    change system.dcache.nextState request _ = _
    simp [Dcache.nextState, idle, hits]
  refine
    ⟨flat.coherent.clock_of_write isWord idle hits asks writes, ?_,
      .inl state⟩
  simp only [ackedD, asks, writes, Bool.and_self, Bool.true_and]
  cases answered : system.ready request with
  | true =>
      rw [if_pos rfl]
      exact .inl memory
  | false =>
      obtain rfl := held asks answered
      rw [if_neg Bool.false_ne_true]
      exact .inr ⟨⟨asks, writes⟩, memory⟩

include flat in
/-- A cycle without a write that hits or a miss changes nothing. -/
theorem Flat.clock_of_nothing
    (idle : system.dcache.state = .idle)
    (nothing :
      request.valid = false ∨
        request.we = false ∧ system.dcache.hit request = true) :
    (system.clock request).Flat next (system.ackedD request acked) := by
  have notWriting : (request.valid && request.we) = false := by
    rcases nothing with silent | ⟨reads, _⟩
    · rw [silent, Bool.false_and]
    · rw [reads, Bool.and_false]
  have noWrite :
      ((system.memRequest request).valid &&
        (system.memRequest request).we) = false := by
    rcases nothing with silent | ⟨reads, _⟩
    · simp [memRequest, Dcache.memReq, idle, silent]
    · simp [memRequest, Dcache.memReq, idle, reads]
  have sameLine :
      system.dcache.lineD request system.dmemWrapper.response =
        system.dcache.selected request := by
    rcases nothing with silent | ⟨reads, _⟩
    · simp [Dcache.lineD, idle, silent]
    · simp [Dcache.lineD, idle, reads]
  have state : (system.clock request).dcache.state = .idle := by
    change system.dcache.nextState request _ = _
    rcases nothing with silent | ⟨_, hits⟩
    · simp [Dcache.nextState, idle, silent]
    · simp [Dcache.nextState, idle, hits]
  refine
    ⟨flat.coherent.clock_of_no_write noWrite sameLine, ?_, .inl state⟩
  left
  rw [pendingMemory_of_no_write noWrite, ackedD, notWriting, Bool.false_and,
    if_neg Bool.false_ne_true]
  rcases flat.pending with same | ⟨⟨asks, writes⟩, _⟩
  · exact same
  · rw [asks, writes] at notWriting
    cases notWriting

include flat held in
/-- Every cycle in which a request that misses finds the pipe empty keeps the
memory flat. -/
theorem Flat.clock
    (proper : request.valid = true → Memory.IsWord request.addr)
    (clear : system.misses request = true → system.drained = true) :
    (system.clock request).Flat next (system.ackedD request acked) := by
  rcases flat.phase with idle | ⟨waits, age, bound, fetching⟩
  · cases asks : request.valid with
    | false =>
        exact flat.clock_of_nothing idle (.inl asks)
    | true =>
        cases hits : system.dcache.hit request with
        | true =>
            cases writes : request.we with
            | false =>
                exact flat.clock_of_nothing idle (.inr ⟨writes, hits⟩)
            | true =>
                exact flat.clock_of_write held (proper asks) idle hits asks
                  writes
        | false =>
            have misses : system.misses request = true := by
              simp [DcacheSystem.misses, idle, asks, hits]
            have notReady : system.ready request = false := by
              simp [ready, Dcache.ready, asks, hits]
            have noWrite :
                ((system.memRequest request).valid &&
                  (system.memRequest request).we) = false := by
              simp [memRequest, Dcache.memReq, idle, hits]
            have sameLine :
                system.dcache.lineD request system.dmemWrapper.response =
                  system.dcache.selected request := by
              simp [Dcache.lineD, idle, hits]
            exact flat.clock_of_waiting held asks notReady noWrite
              (flat.coherent.clock_of_no_write noWrite sameLine)
              (.inr ⟨0, Nat.zero_le _,
                fetching_of_misses misses (clear misses)⟩)
  · exact flat.clock_of_fetching held (proper waits) waits bound fetching

end Step

/-- A read that is acknowledged takes the word of the flat memory. -/
theorem Flat.dataRd
    (flat : system.Flat request acked)
    (isWord : Memory.IsWord request.addr)
    (asks : request.valid = true)
    (reads : request.we = false)
    (answered : system.ready request = true) :
    system.dcache.dataRd request = acked.readMem request.addr := by
  simp only [ready, Dcache.ready, Bool.and_eq_true, beq_iff_eq, asks, reads,
    Bool.not_true, Bool.false_or, Bool.not_false, Bool.and_true,
    Bool.and_false, Bool.false_and, Bool.or_false] at answered
  obtain ⟨idle, hits⟩ := answered
  have memory : system.pendingMemory = acked := by
    rcases flat.pending with same | ⟨⟨_, writes⟩, _⟩
    · exact same
    · rw [reads] at writes
      cases writes
  simp only [Dcache.dataRd, idle, asks, hits, reads, Bool.not_false,
    Bool.and_self, if_true]
  rw [flat.coherent.of_hit hits, memory]
  exact congrArg acked.readMem (Dcache.wordAddr_lineAligned isWord)

section Run

variable (initial : DcacheSystem) (requests : Nat → DcacheRequest)

/-- The system at the beginning of every cycle. -/
def run : Nat → DcacheSystem :=
  Clocked.run clock initial requests

/-- A request is acknowledged in this cycle. -/
def acknowledges (cycle : Nat) : Bool :=
  (requests cycle).valid && (initial.run requests cycle).ready (requests cycle)

/-- Every request is held until it is acknowledged. -/
def Held : Prop :=
  ∀ cycle,
    (requests cycle).valid = true →
    (initial.run requests cycle).ready (requests cycle) = false →
    requests (cycle + 1) = requests cycle

/-- Every request names a word inside the array. -/
def Proper : Prop :=
  ∀ cycle, (requests cycle).valid = true → Memory.IsWord (requests cycle).addr

/-- The data of the last write to a word that was acknowledged before a cycle,
or the word that the memory held in the beginning. -/
def latestWord (addr : Bus32) : Nat → Bus32
  | 0 => initial.memory.readMem addr
  | cycle + 1 =>
      if initial.acknowledges requests cycle = true ∧
          (requests cycle).we = true ∧ (requests cycle).addr = addr then
        (requests cycle).dataWr
      else
        latestWord addr cycle

/-- The memory that the writes acknowledged before a cycle left. -/
def ackedMemory : Nat → Memory
  | 0 => initial.memory
  | cycle + 1 =>
      (initial.run requests cycle).ackedD (requests cycle)
        (ackedMemory cycle)

/-- Its words are what was written to them last. -/
theorem readMem_ackedMemory
    (proper : Proper requests)
    {addr : Bus32}
    (isWord : Memory.IsWord addr)
    (cycle : Nat) :
    (initial.ackedMemory requests cycle).readMem addr =
      initial.latestWord requests addr cycle := by
  induction cycle with
  | zero =>
      rfl
  | succ cycle inductionHypothesis =>
      simp only [ackedMemory, latestWord, ackedD, acknowledges,
        Bool.and_eq_true]
      by_cases writes :
          ((requests cycle).valid = true ∧ (requests cycle).we = true) ∧
            (initial.run requests cycle).ready (requests cycle) = true
      · rw [if_pos writes,
          Memory.readMem_writeMem (proper cycle writes.1.1) isWord,
          inductionHypothesis]
        simp only [writes.1.1, writes.1.2, writes.2, true_and, and_self,
          eq_comm]
      · rw [if_neg writes, if_neg fun named =>
          writes ⟨⟨named.1.1, named.2.1⟩, named.1.2⟩]
        exact inductionHypothesis

variable {initial requests}

/-- Every run of held requests is flat as long as misses find the pipe
empty. -/
theorem run_flat
    (fresh : initial.Fresh)
    (proper : Proper requests)
    (held : initial.Held requests)
    {cycle : Nat}
    (clear :
      ∀ earlier,
        earlier < cycle →
        (initial.run requests earlier).misses (requests earlier) = true →
        (initial.run requests earlier).drained = true) :
    (initial.run requests cycle).Flat (requests cycle)
      (initial.ackedMemory requests cycle) := by
  induction cycle with
  | zero =>
      exact fresh.flat (requests 0)
  | succ cycle inductionHypothesis =>
      have flat :=
        inductionHypothesis fun earlier before =>
          clear earlier (Nat.lt_succ_of_lt before)
      exact
        flat.clock (held cycle) (proper cycle)
          (clear cycle (Nat.lt_succ_self cycle))

/--
The cache with its memory is one flat memory: every read that is acknowledged
takes the data of the last acknowledged write to its word, or the initial
word, if the pipe of the memory was empty whenever a request missed.
-/
theorem dataRd_latest
    (fresh : initial.Fresh)
    (proper : Proper requests)
    (held : initial.Held requests)
    {cycle : Nat}
    (clear :
      ∀ earlier,
        earlier < cycle →
        (initial.run requests earlier).misses (requests earlier) = true →
        (initial.run requests earlier).drained = true)
    (acknowledged : initial.acknowledges requests cycle = true)
    (reads : (requests cycle).we = false) :
    (initial.run requests cycle).dcache.dataRd (requests cycle) =
      initial.latestWord requests (requests cycle).addr cycle := by
  simp only [acknowledges, Bool.and_eq_true] at acknowledged
  have isWord := proper cycle acknowledged.1
  rw [(run_flat fresh proper held clear).dataRd isWord acknowledged.1 reads
    acknowledged.2]
  exact readMem_ackedMemory initial requests proper isWord cycle

end Run

section Examples

/-- The memory stays unevaluated. -/
instance : Strict DcacheSystem where
  force system use :=
    Strict.force (system.dcache, system.dmemWrapper)
      fun (dcache, dmemWrapper) =>
        use { dcache, dmemWrapper, memory := system.memory }
  force_eq _ _ := by rw [Strict.force_eq]

/-- The system with the number of the cycle. -/
def tick
    (requests : Nat → DcacheRequest)
    (state : Nat × DcacheSystem) :
    Nat × DcacheSystem :=
  (state.1 + 1, state.2.clock (requests state.1))

/-- It runs through the cycles. -/
theorem iterate_tick
    (initial : DcacheSystem)
    (requests : Nat → DcacheRequest)
    (cycle : Nat) :
    (tick requests)^[cycle] (0, initial) =
      (cycle, initial.run requests cycle) := by
  induction cycle with
  | zero =>
      rfl
  | succ cycle inductionHypothesis =>
      rw [Function.iterate_succ_apply', inductionHypothesis]
      rfl

/-- In this cycle the request is proper, and held if it is not
acknowledged. -/
def behaves
    (requests : Nat → DcacheRequest)
    (state : Nat × DcacheSystem) :
    Bool :=
  !(requests state.1).valid ||
    ((requests state.1).addr.toNat % 4 == 0 &&
      decide ((requests state.1).addr.toNat < 2 ^ 30) &&
      (state.2.ready (requests state.1) ||
        requests (state.1 + 1) == requests state.1))

/-- A run of finitely many requests is checked by evaluation. -/
theorem proper_held_of_passed
    {initial : DcacheSystem}
    {requests : Nat → DcacheRequest}
    {cycles : Nat}
    (silent : ∀ cycle, cycles < cycle → (requests cycle).valid = false)
    (passed :
      Strict.always (tick requests) (behaves requests) cycles (0, initial) =
        true) :
    Proper requests ∧ initial.Held requests := by
  have checked :
      ∀ cycle,
        (requests cycle).valid = true →
        Memory.IsWord (requests cycle).addr ∧
          ((initial.run requests cycle).ready (requests cycle) = false →
            requests (cycle + 1) = requests cycle) := by
    intro cycle asks
    have covered : cycle ≤ cycles := by
      by_contra late
      rw [silent cycle (Nat.lt_of_not_le late)] at asks
      cases asks
    have check := Strict.check_of_always passed covered
    simp only [iterate_tick, behaves, asks, Bool.not_true, Bool.false_or,
      Bool.and_eq_true, beq_iff_eq, decide_eq_true_eq, Bool.or_eq_true]
      at check
    refine ⟨⟨check.1.1, check.1.2⟩, ?_⟩
    intro notReady
    rcases check.2 with answered | kept
    · rw [notReady] at answered
      cases answered
    · exact kept
  exact
    ⟨fun cycle asks => (checked cycle asks).1,
      fun cycle asks => (checked cycle asks).2⟩

/-- A word that no request writes keeps what the memory held. -/
theorem latestWord_of_unwritten
    {initial : DcacheSystem}
    {requests : Nat → DcacheRequest}
    {addr : Bus32}
    {cycle : Nat}
    (unwritten :
      ∀ earlier,
        earlier < cycle →
        ¬ ((requests earlier).we = true ∧ (requests earlier).addr = addr)) :
    initial.latestWord requests addr cycle =
      initial.memory.readMem addr := by
  induction cycle with
  | zero =>
      rfl
  | succ cycle inductionHypothesis =>
      rw [latestWord, if_neg fun writes =>
        unwritten cycle (Nat.lt_succ_self cycle) writes.2]
      exact inductionHypothesis fun earlier before =>
        unwritten earlier (Nat.lt_succ_of_lt before)

/-- A system that has not been used. -/
def unused (memory : Memory) : DcacheSystem where
  dcache := .reset
  dmemWrapper := { reqPipe := fun _ => default, rspPipe := fun _ => default }
  memory := memory

theorem fresh_unused (memory : Memory) : (unused memory).Fresh where
  state := rfl
  sets := fun _ => rfl
  requests := fun _ => rfl
  responses := fun _ => rfl

/-- Seven everywhere, and nine in the first word of the second line. -/
def sevens : Memory := fun position => if position = 4 then 9 else 7

/-- No request. -/
def silentRequest : DcacheRequest where
  addr := 0
  dataWr := 0
  we := false
  valid := false

/-- Read word zero, write one to it, wait for the pipe to drain, read a word
of another line and word zero again. -/
def drainedReads (cycle : Nat) : DcacheRequest :=
  if cycle ≤ 13 then { silentRequest with valid := true }
  else if cycle ≤ 24 then
    { silentRequest with valid := true, we := true, dataWr := 1 }
  else if cycle ≤ 33 then silentRequest
  else if cycle ≤ 47 then { silentRequest with valid := true, addr := 16 }
  else if cycle = 48 then { silentRequest with valid := true }
  else silentRequest

/-- The last read is acknowledged with what was written. -/
theorem dataRd_latest_drainedReads :
    ((unused sevens).run drainedReads 48).dcache.dataRd (drainedReads 48) =
      (unused sevens).latestWord drainedReads 0 48 := by
  have silent : ∀ cycle, 48 < cycle → (drainedReads cycle).valid = false := by
    intro cycle late
    simp only [drainedReads]
    rw [if_neg (by omega), if_neg (by omega), if_neg (by omega),
      if_neg (by omega), if_neg (by omega)]
    rfl
  obtain ⟨proper, held⟩ :
      Proper drainedReads ∧ (unused sevens).Held drainedReads :=
    proper_held_of_passed silent (by decide +kernel)
  have passed :
      Strict.always (tick drainedReads)
        (fun state =>
          !state.2.misses (drainedReads state.1) || state.2.drained)
        48 (0, unused sevens) = true := by
    decide +kernel
  have answers :
      Strict.observe (tick drainedReads)
        (fun state => state.2.ready (drainedReads state.1)) 48
        (0, unused sevens) = true := by
    decide +kernel
  rw [Strict.observe_eq, iterate_tick] at answers
  refine dataRd_latest (fresh_unused sevens) proper held ?_ ?_ rfl
  · intro earlier before misses
    have check := Strict.check_of_always passed before.le
    rw [iterate_tick, misses, Bool.not_true, Bool.false_or] at check
    exact check
  · exact answers

/-- Read word zero, write one to it, and read a word of another line without
waiting. -/
def undrainedRead (cycle : Nat) : DcacheRequest :=
  if cycle ≤ 13 then { silentRequest with valid := true }
  else if cycle ≤ 24 then
    { silentRequest with valid := true, we := true, dataWr := 1 }
  else if cycle ≤ 28 then { silentRequest with valid := true, addr := 16 }
  else silentRequest

/-- The last read is acknowledged with a word of the line read before: a
response left over from the write ends its miss. -/
theorem undrainedRead_stale :
    (unused sevens).Fresh ∧ Proper undrainedRead ∧
      (unused sevens).Held undrainedRead ∧
      (unused sevens).acknowledges undrainedRead 28 = true ∧
      (undrainedRead 28).we = false ∧
      ((unused sevens).run undrainedRead 28).dcache.dataRd
          (undrainedRead 28) = 7 ∧
      (unused sevens).latestWord undrainedRead (undrainedRead 28).addr 28 =
        9 := by
  have silent : ∀ cycle, 28 < cycle → (undrainedRead cycle).valid = false := by
    intro cycle late
    simp only [undrainedRead]
    rw [if_neg (by omega), if_neg (by omega), if_neg (by omega)]
    rfl
  obtain ⟨proper, held⟩ :
      Proper undrainedRead ∧ (unused sevens).Held undrainedRead :=
    proper_held_of_passed silent (by decide +kernel)
  have observed :
      Strict.observe (tick undrainedRead)
        (fun state =>
          (state.2.ready (undrainedRead state.1),
            state.2.dcache.dataRd (undrainedRead state.1))) 28
        (0, unused sevens) = (true, 7) := by
    decide +kernel
  rw [Strict.observe_eq, iterate_tick, Prod.mk.injEq] at observed
  have unwritten :
      (unused sevens).latestWord undrainedRead 16 28 = 9 := by
    rw [latestWord_of_unwritten]
    · decide
    · intro earlier before writes
      simp only [undrainedRead] at writes
      split at writes
      · cases writes.1
      · split at writes
        · cases writes.2
        · split at writes <;> cases writes.1
  exact
    ⟨fresh_unused sevens, proper, held, observed.1, rfl, observed.2,
      unwritten⟩

end Examples

end DcacheSystem

end Tartaruga
