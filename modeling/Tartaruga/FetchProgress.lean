import Tartaruga.FetchCoherence
import Tartaruga.Progress

namespace Tartaruga

/-!
# Instruction fetch makes progress

A program counter that stays is answered.  The line in flight is first waited
for, then the missing line is requested, and it is installed ten cycles later.
-/

namespace Icache

variable {cache : Icache} {pc : Bus32} {response : InstrResponse}

/-- The way that a response replaces holds its line. -/
theorem hitWay_cacheMemD
    (valid : response.valid = true)
    (covers : response.addr = lineAligned pc)
    (reqReady : Bool)
    (asked : Bus32) :
    (cache.clock asked reqReady response).hitWay pc
      (cache.lruWay (index pc)) = true := by
  have sameSet : index response.addr = index pc := by
    rw [covers, index_lineAligned]
  have sameTag : tagIn response.addr = tagIn pc := by
    rw [covers, tagIn_lineAligned]
  simp [hitWay, clock, cacheMemD, valid, sameSet, sameTag]

/-- The words of a line hit once it has been installed. -/
theorem hit_of_response
    (valid : response.valid = true)
    (covers : response.addr = lineAligned pc)
    (reqReady : Bool)
    (asked : Bus32) :
    (cache.clock asked reqReady response).hit pc = true := by
  have holds :
      (cache.clock asked reqReady response).hitWay pc
        (cache.lruWay (index pc)) = true :=
    hitWay_cacheMemD valid covers reqReady asked
  rw [hit, Bool.or_eq_true]
  simp only [lruWay] at holds
  split at holds
  · exact .inr holds
  · exact .inl holds

end Icache

namespace FetchPath

variable {path : FetchPath} {input : FetchInput} {age : Nat} {addr : Bus32}

/-- The age of the line in flight, for which the cache waits. -/
structure Serving (path : FetchPath) (age : Nat) : Prop where
  aged : path.imemWrapper.Aged age
  pending : path.icache.pendingReq = decide (age < 10)

/-- Every line in flight has this address. -/
structure Brings (path : FetchPath) (addr : Bus32) : Prop where
  requests :
    ∀ stage,
      (path.imemWrapper.reqPipe stage).valid = true →
      (path.imemWrapper.reqPipe stage).addr = addr
  responses :
    ∀ stage,
      (path.imemWrapper.rspPipe stage).valid = true →
      (path.imemWrapper.rspPipe stage).addr = addr

/-- Nothing is in flight after reset. -/
theorem serving_reset : reset.Serving 10 where
  aged := by
    constructor
    · intro stage
      have bound := stage.isLt
      refine iff_of_false Bool.false_ne_true ?_
      omega
    · intro stage
      have bound := stage.isLt
      refine iff_of_false Bool.false_ne_true ?_
      omega
  pending := rfl

/-- Every cycle serves the line in flight or takes a new request. -/
theorem Serving.clock (serving : path.Serving age) (input : FetchInput) :
    (path.clock input).Serving
      (if (path.request input.pc).valid then 0 else age + 1) where
  aged := aged_clock serving.aged serving.pending
  pending := pendingReq_clock serving.aged serving.pending

/-- While a line is in flight no other one is requested. -/
theorem Serving.waits
    (serving : path.Serving age)
    (young : age < 10)
    (pc : Bus32) :
    (path.request pc).valid = false := by
  simp [request, Icache.reqValid, serving.pending, young]

/-- A miss is requested when nothing is in flight. -/
theorem Serving.requests
    (serving : path.Serving age)
    (old : 10 ≤ age)
    {pc : Bus32}
    (misses : path.icache.hit pc = false) :
    (path.request pc).valid = true := by
  have notYoung : ¬ age < 10 := Nat.not_lt.mpr old
  simp [request, Icache.reqValid, serving.pending, notYoung, misses]

/-- A line in flight stays the same line. -/
theorem Brings.clock
    (brings : path.Brings addr)
    (quiet : (path.request input.pc).valid = false) :
    (path.clock input).Brings addr where
  requests stage valid := by
    cases stage using Fin.cases with
    | zero =>
        change (path.request input.pc).valid = true at valid
        rw [quiet] at valid
        cases valid
    | succ stage =>
        have moved :
            (path.clock input).imemWrapper.reqPipe stage.succ =
              path.imemWrapper.reqPipe stage.castSucc :=
          ImemWrapper.reqPipe_succ stage
        rw [moved] at valid ⊢
        exact brings.requests _ valid
  responses stage valid := by
    rcases ImemWrapper.rspPipe_clock valid with
      ⟨source, wasValid, sameAddr, _⟩ | ⟨served, sameAddr, _⟩
    · exact sameAddr.trans (brings.responses source wasValid)
    · exact sameAddr.trans (brings.requests 4 served)

/-- A request that meets empty pipes is the only line in flight. -/
theorem brings_of_request
    (serving : path.Serving age)
    (issued : (path.request input.pc).valid = true) :
    (path.clock input).Brings (Icache.lineAligned input.pc) := by
  have next : (path.clock input).imemWrapper.Aged 0 := by
    have aged := (serving.clock input).aged
    rwa [if_pos issued] at aged
  constructor
  · intro stage valid
    have first := (next.requests stage).mp valid
    obtain rfl : stage = 0 := Fin.ext first.symm
    rfl
  · intro stage valid
    have first := (next.responses stage).mp valid
    omega

/-- The line in flight hits when it has come back. -/
theorem hit_of_brings
    {pc : Bus32}
    (serving : path.Serving 9)
    (brings : path.Brings (Icache.lineAligned pc))
    (input : FetchInput) :
    (path.clock input).icache.hit pc = true := by
  have responds := (responds_iff serving.aged).mpr rfl
  exact
    Icache.hit_of_response responds (brings.responses 4 responds) _ _

/-- How many cycles a program counter still waits at most. -/
inductive Waits (path : FetchPath) (pc : Bus32) : Nat → Prop where
  | hit :
      path.icache.hit pc = true →
      Waits path pc 0
  | free {age : Nat} :
      path.Serving age →
      10 ≤ age →
      Waits path pc 11
  | mine {age : Nat} :
      path.Serving age →
      age < 10 →
      path.Brings (Icache.lineAligned pc) →
      Waits path pc (10 - age)
  | other {age : Nat} :
      path.Serving age →
      age < 10 →
      Waits path pc (21 - age)

/-- Whatever is in flight, a program counter waits for 21 cycles at most. -/
theorem Serving.exists_waits (serving : path.Serving age) (pc : Bus32) :
    ∃ rank, rank ≤ 21 ∧ path.Waits pc rank := by
  rcases Nat.lt_or_ge age 10 with young | old
  · exact ⟨21 - age, Nat.sub_le 21 age, .other serving young⟩
  · exact ⟨11, by decide, .free serving old⟩

/-- A program counter that misses waits one cycle less in the next cycle. -/
theorem Waits.clock
    {rank : Nat}
    (waits : path.Waits input.pc rank)
    (misses : path.icache.hit input.pc = false) :
    ∃ lower, lower < rank ∧ (path.clock input).Waits input.pc lower := by
  cases waits with
  | hit hits =>
      rw [misses] at hits
      cases hits
  | free serving old =>
      have issued := serving.requests old misses
      have next := serving.clock input
      rw [if_pos issued] at next
      exact
        ⟨10, by decide,
          .mine next (by decide) (brings_of_request serving issued)⟩
  | @mine age serving young brings =>
      have quiet := serving.waits young input.pc
      have next := serving.clock input
      rw [if_neg (by rw [quiet]; exact Bool.false_ne_true)] at next
      by_cases last : age = 9
      · subst last
        exact ⟨0, by decide, .hit (hit_of_brings serving brings input)⟩
      · exact
          ⟨10 - (age + 1), by omega,
            .mine next (by omega) (brings.clock quiet)⟩
  | @other age serving young =>
      have quiet := serving.waits young input.pc
      have next := serving.clock input
      rw [if_neg (by rw [quiet]; exact Bool.false_ne_true)] at next
      by_cases last : age = 9
      · subst last
        exact ⟨11, by decide, .free next (Nat.le_refl 10)⟩
      · exact ⟨21 - (age + 1), by omega, .other next (by omega)⟩

/-- The fetch path of a run, under any program counters and memories. -/
def run (inputs : Nat → FetchInput) : Nat → FetchPath :=
  Clocked.run clock reset inputs

/-- In every state of a run at most one line is in flight. -/
theorem run_serving (inputs : Nat → FetchInput) (cycle : Nat) :
    ∃ age, (run inputs cycle).Serving age := by
  induction cycle with
  | zero =>
      exact ⟨10, serving_reset⟩
  | succ cycle inductionHypothesis =>
      obtain ⟨age, serving⟩ := inductionHypothesis
      exact ⟨_, serving.clock (inputs cycle)⟩

/-- A program counter that waits hits in time, or is changed before that. -/
theorem Waits.within
    {inputs : Nat → FetchInput}
    {start rank : Nat}
    (waits : (run inputs start).Waits (inputs start).pc rank) :
    Clocked.Within
      (fun cycle =>
        (run inputs cycle).icache.hit (inputs cycle).pc = true ∨
          (inputs (cycle + 1)).pc ≠ (inputs cycle).pc)
      start rank := by
  refine
    Clocked.within_of_rank
      (fun cycle rank => (run inputs cycle).Waits (inputs cycle).pc rank)
      ?_ waits
  intro cycle rank waits
  cases hits : (run inputs cycle).icache.hit (inputs cycle).pc with
  | true =>
      exact .inl (.inl rfl)
  | false =>
      by_cases stays : (inputs (cycle + 1)).pc = (inputs cycle).pc
      · right
        rw [stays]
        exact waits.clock hits
      · exact .inl (.inr stays)

/-- In every cycle of a run the program counter waits for 21 cycles at
most. -/
theorem exists_waits (inputs : Nat → FetchInput) (cycle : Nat) :
    ∃ rank,
      rank ≤ 21 ∧ (run inputs cycle).Waits (inputs cycle).pc rank := by
  obtain ⟨age, serving⟩ := run_serving inputs cycle
  exact serving.exists_waits (inputs cycle).pc

/--
In every run, whatever the program counters were and whatever the memory
holds, from every cycle on the program counter hits within 21 cycles or is
changed before that.
-/
theorem answers_within (inputs : Nat → FetchInput) (start : Nat) :
    Clocked.Within
      (fun cycle =>
        (run inputs cycle).icache.hit (inputs cycle).pc = true ∨
          (inputs (cycle + 1)).pc ≠ (inputs cycle).pc)
      start 21 := by
  obtain ⟨rank, inTime, waits⟩ := exists_waits inputs start
  exact waits.within.of_le inTime

end FetchPath

end Tartaruga
