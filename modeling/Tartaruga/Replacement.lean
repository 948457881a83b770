import Tartaruga.Clocked
import Tartaruga.FetchSource

namespace Tartaruga

/-!
# Replacement in the instruction cache

Each set has one counter.  A hit clears it, whatever way it hits; a fill leaves
the number of the other way in it.  The counter thus tells the way that was
filled last, but not the way that was hit last.
-/

namespace Icache

/-- What the cache is shown in one cycle. -/
structure Input where
  pc : Bus32
  reqReady : Bool
  response : InstrResponse

/-- A use of one way of a set. -/
inductive Use where
  | hit (way : Fin 2)
  | fill (way : Fin 2)
  deriving Repr, DecidableEq

/-- The way that was used. -/
def Use.way : Use → Fin 2
  | .hit way => way
  | .fill way => way

/-- The way of a set that is read in this cycle. -/
def hitIn (cache : Icache) (set : BitVec 4) (input : Input) :
    Option (Fin 2) :=
  if cache.hit input.pc = true ∧ index input.pc = set then
    some (cache.hitWaySel input.pc)
  else
    none

/-- The way of a set that is overwritten at the end of this cycle. -/
def fillIn (cache : Icache) (set : BitVec 4) (input : Input) :
    Option (Fin 2) :=
  if input.response.valid = true ∧ index input.response.addr = set then
    some (cache.lruWay set)
  else
    none

/-- The last use of a set in one cycle: a line is written after the read. -/
def useIn (cache : Icache) (set : BitVec 4) (input : Input) : Option Use :=
  ((cache.fillIn set input).map .fill).or ((cache.hitIn set input).map .hit)

/-- The cache after a number of cycles from reset. -/
def run (inputs : Nat → Input) : Nat → Icache :=
  Clocked.run
    (fun cache input => cache.clock input.pc input.reqReady input.response)
    reset inputs

/-- The uses of a set in the first `cycles` cycles, oldest first. -/
def uses (inputs : Nat → Input) (set : BitVec 4) (cycles : Nat) : List Use :=
  Clocked.collect
    (fun cycle => (run inputs cycle).useIn set (inputs cycle)) cycles

/-- The most recent use of a set before a cycle. -/
def lastUse (inputs : Nat → Input) (set : BitVec 4) (cycle : Nat) :
    Option Use :=
  (uses inputs set cycle).getLast?

/-- The last use is that of the last cycle, or an older one. -/
theorem lastUse_succ
    (inputs : Nat → Input)
    (set : BitVec 4)
    (cycle : Nat) :
    lastUse inputs set (cycle + 1) =
      ((run inputs cycle).useIn set (inputs cycle)).or
        (lastUse inputs set cycle) := by
  simp only [lastUse, uses, Clocked.collect_succ, List.getLast?_append]
  congr 1
  cases (run inputs cycle).useIn set (inputs cycle) <;> rfl

section Counter

variable (cache : Icache) (set : BitVec 4) (input : Input)

/-- A hit clears the counter of its set. -/
theorem lruAfterHit_apply :
    cache.lruAfterHit input.pc set =
      if (cache.hitIn set input).isSome then 0 else cache.lruCounter set := by
  unfold lruAfterHit hitIn
  by_cases hits : cache.hit input.pc = true
  · by_cases same : index input.pc = set
    · subst same
      have notOlder :
          (cache.lruCounter (index input.pc)).ult
              (cache.lruCounter (index input.pc)) = false := by
        simp [BitVec.ult]
      rcases Fin.exists_fin_two.mp ⟨cache.hitWaySel input.pc, rfl⟩
        with way | way <;>
        simp [hits, way, notOlder, List.finRange_succ]
    · simp [hits, same, Function.update_of_ne (Ne.symm same)]
  · simp [hits]

/-- A fill leaves the number of the other way in the counter of its set. -/
theorem lruAfterFill_apply :
    cache.lruAfterFill input.pc input.response set =
      match cache.fillIn set input with
      | some way => if way = 0 then 1 else 0
      | none => cache.lruAfterHit input.pc set := by
  unfold lruAfterFill fillIn
  by_cases fills : input.response.valid = true
  · by_cases same : index input.response.addr = set
    · subst same
      rcases BitVec.eq_zero_or_eq_one
          (cache.lruCounter (index input.response.addr))
        with counter | counter <;>
        simp [fills, lruWay, counter, List.finRange_succ, BitVec.ult]
    · simp [fills, same, Function.update_of_ne (Ne.symm same)]
  · simp [fills]

/-- A valid line was valid before, or has just been filled. -/
theorem valid_cacheMemD
    {way : Fin 2}
    (valid : (cache.cacheMemD input.response set way).valid = true) :
    (cache.cacheMem set way).valid = true ∨
      (cache.fillIn set input).isSome = true := by
  unfold cacheMemD at valid
  unfold fillIn
  by_cases fills : input.response.valid = true ∧
      index input.response.addr = set
  · exact .inr (by rw [if_pos fills]; rfl)
  · refine .inl ?_
    by_cases responds : input.response.valid = true
    · have other : set ≠ index input.response.addr :=
        fun same => fills ⟨responds, same.symm⟩
      simpa [responds, Function.update_of_ne other] using valid
    · simpa [responds] using valid

end Counter

/-- What the counter of a set holds after its last use. -/
def counterAfter : Option Use → BitVec 1
  | none => 1
  | some (.hit _) => 0
  | some (.fill way) => if way = 0 then 1 else 0

/-- The way that is overwritten after a use of the set. -/
def victimAfter (last : Use) : Fin 2 :=
  if counterAfter (some last) = 1 then 1 else 0

/-- The way that was used last is overwritten after a hit in way 0 only. -/
theorem victimAfter_ne_way_iff (last : Use) :
    victimAfter last ≠ last.way ↔ last ≠ .hit 0 := by
  cases last with
  | hit way => revert way; decide
  | fill way => revert way; decide

/-- Way 1 is overwritten after a fill of way 0 only. -/
theorem victimAfter_ne_iff (last : Use) (way : Fin 2) :
    victimAfter last ≠ way ↔ (way = 0 ↔ last = .fill 0) := by
  cases last with
  | hit last => revert last way; decide
  | fill last => revert last way; decide

/-- The counter of a set is determined by its last use, and a set that has not
been used is empty. -/
structure Remembers
    (cache : Icache)
    (set : BitVec 4)
    (last : Option Use) :
    Prop where
  counter : cache.lruCounter set = counterAfter last
  unused : last = none → ∀ way, (cache.cacheMem set way).valid = false

/-- A cycle replaces the remembered use by its own, if it has one. -/
theorem Remembers.clock
    {cache : Icache}
    {set : BitVec 4}
    {last : Option Use}
    (remembers : cache.Remembers set last)
    (input : Input) :
    (cache.clock input.pc input.reqReady input.response).Remembers set
      ((cache.useIn set input).or last) := by
  constructor
  · change cache.lruAfterFill input.pc input.response set = _
    rw [lruAfterFill_apply, lruAfterHit_apply, useIn]
    cases cache.fillIn set input with
    | some way => rfl
    | none =>
        cases cache.hitIn set input with
        | some way => rfl
        | none => exact remembers.counter
  · intro unused way
    rw [Option.or_eq_none_iff, useIn, Option.or_eq_none_iff] at unused
    obtain ⟨⟨noFill, _⟩, noUse⟩ := unused
    by_contra valid
    rcases cache.valid_cacheMemD set input (Bool.eq_true_of_not_eq_false valid)
      with before | filled
    · rw [remembers.unused noUse way] at before
      cases before
    · rw [Option.map_eq_none_iff.mp noFill] at filled
      cases filled

/-- Along every run from reset the counters remember the last uses. -/
theorem run_remembers
    (inputs : Nat → Input)
    (set : BitVec 4)
    (cycle : Nat) :
    (run inputs cycle).Remembers set (lastUse inputs set cycle) := by
  induction cycle with
  | zero => exact ⟨rfl, fun _ _ => rfl⟩
  | succ cycle inductionHypothesis =>
      rw [lastUse_succ]
      exact inductionHypothesis.clock (inputs cycle)

/--
A fill of a full set spares the way that was used most recently exactly when
that use was not a hit in way 0.  A hit in the very cycle of the fill is spared
exactly when it is in way 0 after a fill of way 0, or in way 1 after anything
else.
-/
theorem fill_spares_recent_iff
    (inputs : Nat → Input)
    (cycle : Nat)
    (set : BitVec 4)
    (victim : Fin 2)
    (fills : (run inputs cycle).fillIn set (inputs cycle) = some victim)
    (full : ∀ way, ((run inputs cycle).cacheMem set way).valid = true) :
    ((∀ recent, lastUse inputs set cycle = some recent →
          victim ≠ recent.way) ↔
        lastUse inputs set cycle ≠ some (.hit 0)) ∧
      ∀ read, (run inputs cycle).hitIn set (inputs cycle) = some read →
        (victim ≠ read ↔
          (read = 0 ↔ lastUse inputs set cycle = some (.fill 0))) := by
  have remembers := run_remembers inputs set cycle
  cases recent : lastUse inputs set cycle with
  | none =>
      have empty := remembers.unused recent 0
      rw [full 0] at empty
      cases empty
  | some last =>
      have chosen : victim = victimAfter last := by
        rw [fillIn] at fills
        split at fills
        · rw [← Option.some.inj fills, lruWay, remembers.counter, recent]
          simp only [beq_iff_eq, victimAfter]
        · cases fills
      constructor
      · rw [chosen, Ne, Option.some.injEq, ← Ne, ← victimAfter_ne_way_iff]
        constructor
        · intro spared
          exact spared last rfl
        · intro spared other same
          rw [← Option.some.inj same]
          exact spared
      · intro read _
        rw [chosen, Option.some.injEq]
        exact victimAfter_ne_iff last read

/-- Three lines of the first set arrive; the second one is read in between if
the flag is set. -/
def threeLines (reread : Bool) : Nat → Input
  | 0 => ⟨0x40, true, ⟨true, 0x000, fun _ => 0⟩⟩
  | 1 => ⟨0x40, true, ⟨true, 0x400, fun _ => 0⟩⟩
  | 2 =>
      ⟨if reread then 0x400 else 0x40, true, ⟨false, 0, fun _ => 0⟩⟩
  | 3 => ⟨0x40, true, ⟨true, 0x800, fun _ => 0⟩⟩
  | _ => ⟨0x40, true, ⟨false, 0, fun _ => 0⟩⟩

/-- The second line went to way 0; the third one goes to way 1. -/
theorem fill_spares_recent_iff_threeLines :
    (∀ recent, lastUse (threeLines false) 0 3 = some recent →
        (1 : Fin 2) ≠ recent.way) ↔
      lastUse (threeLines false) 0 3 ≠ some (.hit 0) :=
  (fill_spares_recent_iff (threeLines false) 3 0 1 (by decide +kernel)
    (by decide +kernel)).1

/-- The line that has just been read is overwritten by the next one. -/
theorem recent_not_spared :
    ¬∀ (inputs : Nat → Input) (cycle : Nat) (set : BitVec 4)
      (victim : Fin 2),
      (run inputs cycle).fillIn set (inputs cycle) = some victim →
        (∀ way, ((run inputs cycle).cacheMem set way).valid = true) →
          ∀ recent, lastUse inputs set cycle = some recent →
            victim ≠ recent.way := by
  intro spares
  exact spares (threeLines true) 3 0 0 (by decide +kernel)
    (by decide +kernel) (.hit 0) (by decide +kernel) rfl

end Icache

end Tartaruga
