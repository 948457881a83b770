import Tartaruga.BitFields
import Tartaruga.Clocked
import Tartaruga.FetchSource
import Mathlib.Tactic.IntervalCases

namespace Tartaruga

/-!
# Instruction fetch is coherent with memory

The program counter may change while a line is on its way; the line is
installed by its own address.  The invariant follows the one request in flight
through both pipes and says what every valid way holds.
-/

/-- The address with its two low bits cleared. -/
def wordAligned (addr : Bus32) : Bus32 :=
  addr.extractLsb' 2 30 ++ 0#2

namespace Icache

/-- The address of the line with a tag in a set. -/
def lineAddr (tag : BitVec 22) (set : BitVec 4) : Bus32 :=
  (tag ++ set) ++ 0#6

/-- Tag and set of an address name its line. -/
theorem lineAddr_eq (addr : Bus32) :
    lineAddr (tagIn addr) (index addr) = lineAligned addr := by
  apply BitVec.eq_of_toNat_eq
  simp only [lineAddr, tagIn, index, lineAligned, BitFields.toNat_append_eq,
    BitVec.extractLsb'_toNat, Nat.shiftRight_eq_div_pow,
    BitVec.toNat_ofNat]
  omega

/-- An address names a word of its line. -/
theorem lineAligned_add_wordOffset (addr : Bus32) :
    lineAligned addr + BitVec.ofNat 32 ((wordOffset addr).val * 4) =
      wordAligned addr := by
  apply BitVec.eq_of_toNat_eq
  rw [BitVec.toNat_add]
  simp only [lineAligned, wordOffset, wordAligned, BitFields.toNat_append_eq,
    BitVec.extractLsb'_toNat, Nat.shiftRight_eq_div_pow,
    BitVec.toNat_ofNat, BitVec.val_toFin]
  omega

/-- The address of a line lies in the same set as its words. -/
theorem index_lineAligned (addr : Bus32) :
    index (lineAligned addr) = index addr := by
  apply BitVec.eq_of_toNat_eq
  simp only [index, lineAligned, BitFields.toNat_append_eq,
    BitVec.extractLsb'_toNat, Nat.shiftRight_eq_div_pow,
    BitVec.toNat_ofNat]
  omega

/-- The address of a line has the same tag as its words. -/
theorem tagIn_lineAligned (addr : Bus32) :
    tagIn (lineAligned addr) = tagIn addr := by
  apply BitVec.eq_of_toNat_eq
  simp only [tagIn, lineAligned, BitFields.toNat_append_eq,
    BitVec.extractLsb'_toNat, Nat.shiftRight_eq_div_pow,
    BitVec.toNat_ofNat]
  omega

/-- The address of a line is aligned. -/
theorem lineAligned_lineAligned (addr : Bus32) :
    lineAligned (lineAligned addr) = lineAligned addr := by
  rw [← lineAddr_eq (lineAligned addr), index_lineAligned,
    tagIn_lineAligned, lineAddr_eq]

variable {cache : Icache} {pc : Bus32} {response : InstrResponse}
  {program : Memory}

/-- A line hits exactly when its words do. -/
theorem hit_lineAligned (cache : Icache) (pc : Bus32) :
    cache.hit (lineAligned pc) = cache.hit pc := by
  simp only [hit, hitWay, index_lineAligned, tagIn_lineAligned]

/-- A miss finds no way with the line. -/
theorem hit_eq_false :
    cache.hit pc = false ↔
      ∀ way,
        (cache.cacheMem (index pc) way).valid = true →
        (cache.cacheMem (index pc) way).tag ≠ tagIn pc := by
  simp only [hit, hitWay, Bool.or_eq_false_iff, Bool.and_eq_false_iff,
    beq_eq_false_iff_ne, Fin.forall_fin_two]
  constructor
  · rintro ⟨first, second⟩
    exact ⟨fun valid => first.resolve_left (by simp [valid]),
      fun valid => second.resolve_left (by simp [valid])⟩
  · rintro ⟨first, second⟩
    constructor
    · cases valid : (cache.cacheMem (index pc) 0).valid with
      | true => exact .inr (first valid)
      | false => exact .inl rfl
    · cases valid : (cache.cacheMem (index pc) 1).valid with
      | true => exact .inr (second valid)
      | false => exact .inl rfl

/-- The selected way of a hit holds the line. -/
theorem hitWay_hitWaySel (hits : cache.hit pc = true) :
    cache.hitWay pc (cache.hitWaySel pc) = true := by
  simp only [hitWaySel]
  split
  · assumption
  · rename_i notSecond
    simp only [hit, Bool.or_eq_true] at hits
    exact hits.resolve_right notSecond

/-- Every valid way holds the words of its line, and no two of a set the same
line. -/
structure Coherent (cache : Icache) (program : Memory) : Prop where
  lines :
    ∀ set way word,
      (cache.cacheMem set way).valid = true →
      (cache.cacheMem set way).data word =
        program.readMem
          (lineAddr (cache.cacheMem set way).tag set +
            BitVec.ofNat 32 (word.val * 4))
  distinct :
    ∀ set way other,
      (cache.cacheMem set way).valid = true →
      (cache.cacheMem set other).valid = true →
      (cache.cacheMem set way).tag = (cache.cacheMem set other).tag →
      way = other

/-- The cache is empty after reset. -/
theorem coherent_reset (program : Memory) : reset.Coherent program where
  lines _ _ _ valid := by cases valid
  distinct _ _ _ valid := by cases valid

/-- A hit shows the word of the memory. -/
theorem Coherent.instr_eq
    (coherent : cache.Coherent program)
    (hits : cache.hit pc = true) :
    cache.instr pc = program.readMem (wordAligned pc) := by
  have holds := hitWay_hitWaySel hits
  simp only [hitWay, Bool.and_eq_true, beq_iff_eq] at holds
  rw [instr, if_pos hits, coherent.lines _ _ _ holds.1, holds.2,
    lineAddr_eq, lineAligned_add_wordOffset]

/-- What a response brings: the line of its address, which no way holds. -/
structure Fills
    (cache : Icache)
    (program : Memory)
    (response : InstrResponse) :
    Prop where
  aligned : lineAligned response.addr = response.addr
  absent : cache.hit response.addr = false
  words :
    ∀ word,
      response.line word =
        program.readMem (response.addr + BitVec.ofNat 32 (word.val * 4))

/-- A response with the address and the line of a request fills it. -/
theorem fills_of_addr
    {addr : Bus32}
    (sameAddr : response.addr = addr)
    (aligned : lineAligned addr = addr)
    (absent : cache.hit addr = false)
    (words :
      ∀ word,
        response.line word =
          program.readMem (addr + BitVec.ofNat 32 (word.val * 4))) :
    cache.Fills program response := by
  subst sameAddr
  exact ⟨aligned, absent, words⟩

/-- Installing a response keeps the cache coherent. -/
theorem Coherent.cacheMemD
    (coherent : cache.Coherent program)
    (fills : response.valid = true → cache.Fills program response)
    (pending : Bool)
    (counters : BitVec 4 → BitVec 1) :
    Coherent
      { cacheMem := cache.cacheMemD response
        lruCounter := counters
        pendingReq := pending }
      program := by
  cases valid : response.valid with
  | false =>
      simp only [Icache.cacheMemD, valid, Bool.false_eq_true, if_false]
      exact ⟨coherent.lines, coherent.distinct⟩
  | true =>
      have filled := fills valid
      have installed :
          ∀ set way,
            cache.cacheMemD response set way =
              if set = index response.addr ∧
                  way = cache.lruWay (index response.addr) then
                { valid := true
                  tag := tagIn response.addr
                  data := response.line }
              else
                cache.cacheMem set way := by
        intro set way
        simp only [Icache.cacheMemD, valid, if_true]
        by_cases sameSet : set = index response.addr
        · subst sameSet
          simp only [Function.update_self, true_and, Function.update_apply]
        · simp only [Function.update_of_ne sameSet, sameSet, false_and,
            if_false]
      constructor
      · intro set way word isValid
        simp only [installed] at isValid ⊢
        by_cases here :
            set = index response.addr ∧
              way = cache.lruWay (index response.addr)
        · rw [if_pos here, here.1]
          simp only [lineAddr_eq, filled.aligned, filled.words]
        · rw [if_neg here] at isValid ⊢
          exact coherent.lines set way word isValid
      · intro set way other isValid otherValid sameTag
        simp only [installed] at isValid otherValid sameTag
        by_cases here :
            set = index response.addr ∧
              way = cache.lruWay (index response.addr)
        · by_cases there :
              set = index response.addr ∧
                other = cache.lruWay (index response.addr)
          · rw [here.2, there.2]
          · rw [if_neg there] at otherValid sameTag
            rw [if_pos here] at sameTag
            rw [here.1] at otherValid sameTag
            exact (hit_eq_false.mp filled.absent other otherValid
              sameTag.symm).elim
        · by_cases there :
              set = index response.addr ∧
                other = cache.lruWay (index response.addr)
          · rw [if_neg here] at isValid sameTag
            rw [if_pos there] at sameTag
            rw [there.1] at isValid sameTag
            exact (hit_eq_false.mp filled.absent way isValid sameTag).elim
          · rw [if_neg here] at isValid sameTag
            rw [if_neg there] at otherValid sameTag
            exact coherent.distinct set way other isValid otherValid sameTag

end Icache

namespace ImemWrapper

variable {wrapper : ImemWrapper} {age : Nat} {request : InstrRequest}
  {memory : Memory}

/-- Every word of a line is read from its own address. -/
theorem readLine_apply
    (memory : Memory)
    (addr : Bus32)
    (word : Fin 16) :
    readLine memory addr word =
      memory.readMem (addr + BitVec.ofNat 32 (word.val * 4)) := by
  obtain ⟨position, bound⟩ := word
  interval_cases position <;> simp [readLine, lineReads, BitVec.add_assoc]

/-- One request is in flight, in the stage that its age says; from age ten on
it has left both pipes. -/
structure Aged (wrapper : ImemWrapper) (age : Nat) : Prop where
  requests :
    ∀ stage,
      (wrapper.reqPipe stage).valid = true ↔ age = stage.val
  responses :
    ∀ stage,
      (wrapper.rspPipe stage).valid = true ↔ age = stage.val + 5

/-- A request that has left the pipes makes room for another one. -/
theorem Aged.reqReady (aged : wrapper.Aged age) (old : 10 ≤ age) :
    wrapper.reqReady = true := by
  simp only [ImemWrapper.reqReady, Bool.and_eq_true, List.all_eq_true,
    Bool.not_eq_true', ← Bool.not_eq_true, aged.requests, aged.responses]
  constructor
  · intro stage _
    have bound := stage.isLt
    omega
  · intro stage _
    have bound := stage.isLt
    omega

/-- Requests move on by one stage. -/
theorem reqPipe_succ (stage : Fin 4) :
    (wrapper.clock request true memory).reqPipe stage.succ =
      wrapper.reqPipe stage.castSucc := by
  match stage with
  | 0 | 1 | 2 | 3 => rfl

/-- How many requests and responses are in the pipes. -/
def inFlight (wrapper : ImemWrapper) : Nat :=
  (List.finRange 5).countP (fun stage => (wrapper.reqPipe stage).valid) +
    (List.finRange 5).countP (fun stage => (wrapper.rspPipe stage).valid)

/-- The pipes hold one request up to its tenth cycle. -/
theorem Aged.inFlight_eq (aged : wrapper.Aged age) :
    wrapper.inFlight = if age < 10 then 1 else 0 := by
  have requests :
      ∀ stage,
        (wrapper.reqPipe stage).valid = decide (age = stage.val) := by
    intro stage
    rw [Bool.eq_iff_iff, aged.requests, decide_eq_true_iff]
  have responses :
      ∀ stage,
        (wrapper.rspPipe stage).valid = decide (age = stage.val + 5) := by
    intro stage
    rw [Bool.eq_iff_iff, aged.responses, decide_eq_true_iff]
  simp only [inFlight, requests, responses]
  by_cases young : age < 10
  · rw [if_pos young]
    interval_cases age <;> decide
  · have none :
        ∀ stage : Fin 5, age ≠ stage.val ∧ age ≠ stage.val + 5 := by
      intro stage
      have bound := stage.isLt
      omega
    rw [if_neg young]
    simp [none]

/-- Every cycle moves the request in flight on by one stage. -/
theorem Aged.step
    (aged : wrapper.Aged age)
    (issues : request.valid = true → 10 ≤ age)
    (memory : Memory) :
    (wrapper.clock request true memory).Aged
      (if request.valid then 0 else age + 1) := by
  have next :
      ∀ position,
        position < 10 →
        (age = position ↔
          (if request.valid then 0 else age + 1) = position + 1) := by
    intro position bound
    split
    · rename_i issued
      have old := issues issued
      omega
    · omega
  constructor
  · intro stage
    match stage with
    | 0 =>
        cases issued : request.valid <;> simp [clock, issued]
    | 1 =>
        exact (aged.requests 0).trans (next 0 (by decide))
    | 2 =>
        exact (aged.requests 1).trans (next 1 (by decide))
    | 3 =>
        exact (aged.requests 2).trans (next 2 (by decide))
    | 4 =>
        exact (aged.requests 3).trans (next 3 (by decide))
  · intro stage
    have bound := stage.isLt
    refine Iff.trans ?_ (next (stage.val + 4) (by omega))
    have served := aged.requests 4
    have responses := aged.responses
    match stage with
    | 0 | 1 | 2 | 3 | 4 =>
        simp only [clock, rspPipeD, rspValidShift]
        grind

/-- A response in the pipe was there before or was read in this cycle. -/
theorem rspPipe_clock
    {stage : Fin 5}
    (valid :
      ((wrapper.clock request true memory).rspPipe stage).valid = true) :
    (∃ source,
        (wrapper.rspPipe source).valid = true ∧
          ((wrapper.clock request true memory).rspPipe stage).addr =
            (wrapper.rspPipe source).addr ∧
          ((wrapper.clock request true memory).rspPipe stage).line =
            (wrapper.rspPipe source).line) ∨
      ((wrapper.reqPipe 4).valid = true ∧
        ((wrapper.clock request true memory).rspPipe stage).addr =
          (wrapper.reqPipe 4).addr ∧
        ((wrapper.clock request true memory).rspPipe stage).line =
          readLine memory (wrapper.reqPipe 4).addr) := by
  by_cases isFirst : stage = 0
  · subst isFirst
    simp only [clock, rspPipeD, if_true] at valid ⊢
    by_cases served : (wrapper.reqPipe 4).valid = true
    · rw [if_pos served]
      exact .inr ⟨served, rfl, rfl⟩
    · rw [if_neg served] at valid ⊢
      simp only [rspValidShift, if_true] at valid
      refine .inl ⟨0, ?_, rfl, rfl⟩
      split at valid
      · exact valid
      · cases valid
  · simp only [clock, rspPipeD, if_neg isFirst, rspPipeShift] at valid ⊢
    by_cases stays : (wrapper.rspPipe stage).valid = true
    · rw [if_pos stays]
      exact .inl ⟨stage, stays, rfl, rfl⟩
    · rw [if_neg stays]
      refine .inl ⟨stage - 1, ?_, rfl, rfl⟩
      simp only [rspValidShift, if_neg isFirst, stays, Bool.not_false,
        if_true, Bool.false_eq_true, if_false] at valid
      split at valid
      · rename_i isLast
        rw [isLast]
        exact valid
      · exact valid

end ImemWrapper

/-- The instruction cache with the memory pipe behind it. -/
structure FetchPath where
  icache : Icache
  imemWrapper : ImemWrapper

/-- What the fetch path sees in a cycle. -/
structure FetchInput where
  pc : Bus32
  memory : Memory

namespace FetchPath

/-- The fetch path after reset. -/
def reset : FetchPath where
  icache := .reset
  imemWrapper := .reset

/-- The line request of the cycle. -/
def request (path : FetchPath) (pc : Bus32) : InstrRequest where
  valid := path.icache.reqValid pc
  addr := Icache.lineAligned pc

/-- One clock edge of the fetch path. -/
def clock (path : FetchPath) (input : FetchInput) : FetchPath where
  icache :=
    path.icache.clock input.pc path.imemWrapper.reqReady
      path.imemWrapper.response
  imemWrapper :=
    path.imemWrapper.clock (path.request input.pc) true input.memory

/-- The memory holds the line that is read in this cycle, if one is. -/
def Reads (path : FetchPath) (program memory : Memory) : Prop :=
  (path.imemWrapper.reqPipe 4).valid = true →
  ImemWrapper.readLine memory (path.imemWrapper.reqPipe 4).addr =
    ImemWrapper.readLine program (path.imemWrapper.reqPipe 4).addr

variable {path : FetchPath} {program : Memory} {input : FetchInput}

/-- The cache is coherent, and the line in flight, if any, is one that the
cache lacks. -/
structure Coherent (path : FetchPath) (program : Memory) : Prop where
  cache : path.icache.Coherent program
  aged :
    ∃ age,
      path.imemWrapper.Aged age ∧
        path.icache.pendingReq = decide (age < 10)
  requested :
    ∀ stage,
      (path.imemWrapper.reqPipe stage).valid = true →
      Icache.lineAligned (path.imemWrapper.reqPipe stage).addr =
          (path.imemWrapper.reqPipe stage).addr ∧
        path.icache.hit (path.imemWrapper.reqPipe stage).addr = false
  answered :
    ∀ stage,
      (path.imemWrapper.rspPipe stage).valid = true →
      path.icache.Fills program (path.imemWrapper.rspPipe stage)

/-- Nothing is cached or in flight after reset. -/
theorem coherent_reset (program : Memory) : reset.Coherent program where
  cache := Icache.coherent_reset program
  aged := by
    refine ⟨10, ⟨?_, ?_⟩, rfl⟩
    · intro stage
      have bound := stage.isLt
      refine iff_of_false Bool.false_ne_true ?_
      omega
    · intro stage
      have bound := stage.isLt
      refine iff_of_false Bool.false_ne_true ?_
      omega
  requested _ valid := by cases valid
  answered _ valid := by cases valid

/-- A cycle without a response leaves the ways alone. -/
theorem hit_clock
    (silent : path.imemWrapper.response.valid = false)
    (pc : Bus32) :
    (path.clock input).icache.hit pc = path.icache.hit pc := by
  have same : (path.clock input).icache.cacheMem = path.icache.cacheMem := by
    change path.icache.cacheMemD path.imemWrapper.response = _
    simp [Icache.cacheMemD, silent]
  simp only [Icache.hit, Icache.hitWay, same]

section Aged

variable {age : Nat} (aged : path.imemWrapper.Aged age)
  (pending : path.icache.pendingReq = decide (age < 10))

include pending in
/-- A line is requested on a miss, and only when none is in flight. -/
theorem old_of_request
    (issued : (path.request input.pc).valid = true) :
    10 ≤ age ∧ path.icache.hit input.pc = false := by
  simp only [request, Icache.reqValid, Bool.and_eq_true,
    Bool.not_eq_true', pending, decide_eq_false_iff_not] at issued
  exact ⟨Nat.le_of_not_lt issued.2, issued.1⟩

include aged

/-- The line in flight is answered in its tenth cycle. -/
theorem responds_iff :
    path.imemWrapper.response.valid = true ↔ age = 9 :=
  aged.responses 4

/-- In every other cycle the ways stay. -/
theorem hit_clock_of_aged (notNine : age ≠ 9) (pc : Bus32) :
    (path.clock input).icache.hit pc = path.icache.hit pc := by
  apply hit_clock
  rw [← Bool.not_eq_true, responds_iff aged]
  exact notNine

include pending

/-- The line in flight is one cycle older, or has just been requested. -/
theorem aged_clock :
    (path.clock input).imemWrapper.Aged
      (if (path.request input.pc).valid then 0 else age + 1) :=
  aged.step (fun issued => (old_of_request pending issued).1) input.memory

/-- The cache waits exactly while a line is in flight. -/
theorem pendingReq_clock :
    (path.clock input).icache.pendingReq =
      decide ((if (path.request input.pc).valid then 0 else age + 1) < 10) := by
  change
    (if (path.request input.pc).valid &&
        path.imemWrapper.reqReady then true
      else if path.imemWrapper.response.valid then false
      else path.icache.pendingReq) = _
  cases issued : (path.request input.pc).valid with
  | true =>
      have old := (old_of_request pending issued).1
      have empty := aged.reqReady old
      simp [empty]
  | false =>
      rw [Bool.false_and, if_neg Bool.false_ne_true,
        if_neg Bool.false_ne_true, pending]
      by_cases last : age = 9
      · rw [if_pos ((responds_iff aged).mpr last), last]
        rfl
      · rw [if_neg (mt (responds_iff aged).mp last), decide_eq_decide]
        omega

variable (coherent : path.Coherent program)
include coherent

/-- A requested line stays one that the cache lacks. -/
theorem requested_clock
    {stage : Fin 5}
    (valid : ((path.clock input).imemWrapper.reqPipe stage).valid = true) :
    Icache.lineAligned ((path.clock input).imemWrapper.reqPipe stage).addr =
        ((path.clock input).imemWrapper.reqPipe stage).addr ∧
      (path.clock input).icache.hit
        ((path.clock input).imemWrapper.reqPipe stage).addr = false := by
  cases stage using Fin.cases with
  | zero =>
      obtain ⟨old, misses⟩ := old_of_request pending valid
      refine ⟨Icache.lineAligned_lineAligned input.pc, ?_⟩
      rw [hit_clock_of_aged aged (by omega)]
      exact (Icache.hit_lineAligned _ _).trans misses
  | succ stage =>
      have moved :
          (path.clock input).imemWrapper.reqPipe stage.succ =
            path.imemWrapper.reqPipe stage.castSucc :=
        ImemWrapper.reqPipe_succ stage
      rw [moved] at valid ⊢
      have bound := stage.isLt
      have young : age = stage.val := (aged.requests _).mp valid
      rw [hit_clock_of_aged aged (by omega)]
      exact coherent.requested _ valid

/-- A line on its way back fills a way that the cache lacks with the words of
the program. -/
theorem answered_clock
    (reads : path.Reads program input.memory)
    {stage : Fin 5}
    (valid : ((path.clock input).imemWrapper.rspPipe stage).valid = true) :
    (path.clock input).icache.Fills program
      ((path.clock input).imemWrapper.rspPipe stage) := by
  have bound := stage.isLt
  have nextAge := ((aged_clock aged pending).responses stage).mp valid
  have young : age ≠ 9 := by
    split at nextAge
    · omega
    · omega
  have silent :
      ∀ pc, (path.clock input).icache.hit pc = path.icache.hit pc :=
    hit_clock_of_aged aged young
  rcases ImemWrapper.rspPipe_clock valid with
    ⟨source, wasValid, sameAddr, sameLine⟩ | ⟨served, sameAddr, sameLine⟩
  · have fills := coherent.answered source wasValid
    apply Icache.fills_of_addr sameAddr fills.aligned
    · exact (silent _).trans fills.absent
    · intro word
      exact (congrFun sameLine word).trans (fills.words word)
  · obtain ⟨aligned, absent⟩ := coherent.requested 4 served
    apply Icache.fills_of_addr sameAddr aligned
    · exact (silent _).trans absent
    · intro word
      exact (congrFun (sameLine.trans (reads served)) word).trans
        (ImemWrapper.readLine_apply program _ word)

end Aged

/-- Every cycle that reads the program keeps the fetch path coherent. -/
theorem coherent_clock
    (coherent : path.Coherent program)
    (reads : path.Reads program input.memory) :
    (path.clock input).Coherent program := by
  obtain ⟨age, aged, pending⟩ := coherent.aged
  exact
    { cache := coherent.cache.cacheMemD (coherent.answered 4) _ _
      aged := ⟨_, aged_clock aged pending, pendingReq_clock aged pending⟩
      requested := fun _ valid =>
        requested_clock aged pending coherent valid
      answered := fun _ valid =>
        answered_clock aged pending coherent reads valid }

/-- A coherent path shows the word of the program when it hits. -/
theorem Coherent.instr_eq
    {pc : Bus32}
    (coherent : path.Coherent program)
    (hits : path.icache.hit pc = true) :
    path.icache.instr pc = program.readMem (wordAligned pc) :=
  coherent.cache.instr_eq hits

/--
For every sequence of program counters, in every state of a run over a
constant memory:

* an instruction shown as valid is the word of the memory at the program
  counter;
* every valid way holds the words of the line that its tag and set name, and
  no two ways of a set hold the same line;
* a request is pending exactly when one request or response is in the pipes,
  and never more than one is.
-/
theorem fetch_coherent
    (memory : Memory)
    (counters : Nat → Bus32)
    (cycle : Nat) :
    let path :=
      Clocked.run FetchPath.clock FetchPath.reset
        (fun cycle => { pc := counters cycle, memory := memory }) cycle
    (∀ pc,
        path.icache.hit pc = true →
        path.icache.instr pc = memory.readMem (wordAligned pc)) ∧
      path.icache.Coherent memory ∧
      path.imemWrapper.inFlight =
        (if path.icache.pendingReq then 1 else 0) := by
  have coherent :
      (Clocked.run FetchPath.clock FetchPath.reset
        (fun cycle => { pc := counters cycle, memory := memory })
        cycle).Coherent memory := by
    induction cycle with
    | zero =>
        exact coherent_reset memory
    | succ cycle inductionHypothesis =>
        exact coherent_clock inductionHypothesis fun _ => rfl
  refine ⟨fun pc hits => coherent.instr_eq hits, coherent.cache, ?_⟩
  obtain ⟨age, aged, pending⟩ := coherent.aged
  rw [aged.inFlight_eq, pending]
  simp only [decide_eq_true_eq]

end FetchPath

end Tartaruga
