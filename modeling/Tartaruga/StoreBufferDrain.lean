import Tartaruga.DrainQueue
import Tartaruga.StoreBufferWindow
import Mathlib.Data.List.GetD

namespace Tartaruga

/-!
# The store buffer drains what was committed

Under the protocol of the pipeline the buffer is an abstract drain queue of
address and data pairs: no pointers, and one status instead of two flags whose
combinations depend on the order in which they were set.
-/

/-- What a store writes: an address and the data for it. -/
abbrev Store := Bus32 × Bus32

/-- An element of the abstract drain queue. -/
abbrev DrainItem := DrainQueue.Item Store

/-- What became of the store in a slot: a commit outlasts a discard. -/
def StoreBufferEntry.status (entry : StoreBufferEntry) : DrainQueue.Status :=
  if entry.committed then .committed
  else if entry.discarded then .discarded
  else .live

namespace StoreBuffer

variable {buffer : StoreBuffer} {input : StoreBufferInput}
  {queue : List DrainItem}

/-- The slot holds a store that was neither committed nor discarded. -/
def liveAt (buffer : StoreBuffer) (slot : StoreBufferIdx) : Bool :=
  (buffer.storeBufferQ slot).valid && !(buffer.storeBufferQ slot).committed &&
    !(buffer.storeBufferQ slot).discarded

/-- Some slot is named by the discard mask. -/
def discards (input : StoreBufferInput) : Bool :=
  (List.finRange 4).any input.discard

/--
The protocol of the pipeline: a commit names the oldest live store; a discard
names at least every live store and comes without an insertion or a commit.
-/
structure Follows
    (buffer : StoreBuffer)
    (input : StoreBufferInput) :
    Prop where
  commitLive :
    input.commit = true →
    buffer.liveAt input.idxCommit = true
  commitOldest :
    input.commit = true →
    ∀ slot,
      buffer.liveAt slot = true →
      Ring.dist buffer.headPtrQ input.idxCommit ≤
        Ring.dist buffer.headPtrQ slot
  discardAll :
    discards input = true →
    ∀ slot, buffer.liveAt slot = true → input.discard slot = true
  discardAlone :
    discards input = true →
    buffer.inserts input = false ∧ input.commit = false

instance : Decidable (buffer.Follows input) :=
  decidable_of_iff
    ((input.commit = true → buffer.liveAt input.idxCommit = true) ∧
      (input.commit = true →
        ∀ slot,
          buffer.liveAt slot = true →
          Ring.dist buffer.headPtrQ input.idxCommit ≤
            Ring.dist buffer.headPtrQ slot) ∧
      (discards input = true →
        ∀ slot, buffer.liveAt slot = true → input.discard slot = true) ∧
      (discards input = true →
        buffer.inserts input = false ∧ input.commit = false))
    ⟨fun ⟨commitLive, commitOldest, discardAll, discardAlone⟩ =>
        ⟨commitLive, commitOldest, discardAll, discardAlone⟩,
      fun follows =>
        ⟨follows.commitLive, follows.commitOldest, follows.discardAll,
          follows.discardAlone⟩⟩

/-- The request a cycle makes to the drain queue. -/
def drainInput
    (buffer : StoreBuffer)
    (input : StoreBufferInput) :
    DrainQueue.Input Store where
  insert :=
    if buffer.inserts input then some (input.addr, input.data) else none
  ready := input.rspReady
  commit := input.commit
  discard := discards input

/-- The requests of a whole run. -/
def drainStimulus
    (stimulus : Nat → StoreBufferInput)
    (cycle : Nat) :
    DrainQueue.Input Store :=
  (Clocked.run clock reset stimulus cycle).drainInput (stimulus cycle)

/-- The drain queue at the beginning of every cycle of a run. -/
def drain (stimulus : Nat → StoreBufferInput) : Nat → List DrainItem :=
  DrainQueue.history (drainStimulus stimulus)

/-- The address and data pairs handed to the reader in the first cycles. -/
def handedOver (stimulus : Nat → StoreBufferInput) : Nat → List Store :=
  Clocked.collect fun cycle =>
    let buffer := Clocked.run clock reset stimulus cycle
    if buffer.handsOver (stimulus cycle) then
      some (buffer.addrOut, buffer.dataWr)
    else
      none

/-- The address and data pairs named by commits in the first cycles. -/
def committedStores (stimulus : Nat → StoreBufferInput) : Nat → List Store :=
  Clocked.collect fun cycle =>
    let buffer := Clocked.run clock reset stimulus cycle
    let entry := buffer.storeBufferQ (stimulus cycle).idxCommit
    if (stimulus cycle).commit then some (entry.addr, entry.data) else none

/-- A slot holds what an element of the queue says. -/
structure Holds (entry : StoreBufferEntry) (item : DrainItem) : Prop where
  store : item.entry = (entry.addr, entry.data)
  status : item.status = entry.status

/-- The occupied window, read from the head, is the queue. -/
structure Represents
    (buffer : StoreBuffer)
    (queue : List DrainItem) :
    Prop where
  length : queue.length = buffer.occupancy
  holds :
    ∀ slot,
      Ring.dist buffer.headPtrQ slot < buffer.occupancy →
      ∃ item,
        queue[Ring.dist buffer.headPtrQ slot]? = some item ∧
          Holds (buffer.storeBufferQ slot) item

/-- The buffer after reset is the empty queue. -/
theorem represents_reset : reset.Represents [] := by
  constructor
  · simp [occupancy, reset, reqReady, headEntry]
  · simp [occupancy, reset, reqReady, headEntry]

/-- A valid slot is live exactly when its element is. -/
theorem Holds.isLive
    {slot : StoreBufferIdx}
    {item : DrainItem}
    (holds : Holds (buffer.storeBufferQ slot) item)
    (valid : (buffer.storeBufferQ slot).valid = true) :
    item.isLive = buffer.liveAt slot := by
  rw [DrainQueue.Item.isLive, holds.status, StoreBufferEntry.status, liveAt,
    valid]
  cases (buffer.storeBufferQ slot).committed <;>
    cases (buffer.storeBufferQ slot).discarded <;> rfl

/-- A slot is marked committed exactly when its element is. -/
theorem Holds.isCommitted
    {entry : StoreBufferEntry}
    {item : DrainItem}
    (holds : Holds entry item) :
    item.isCommitted = entry.committed := by
  rw [DrainQueue.Item.isCommitted, holds.status, StoreBufferEntry.status]
  cases entry.committed <;> cases entry.discarded <;> rfl

/-- The slot at a distance inside the window, for a position of the queue. -/
theorem Represents.slot_of_getElem?
    {position : Nat}
    {item : DrainItem}
    (represents : buffer.Represents queue)
    (found : queue[position]? = some item) :
    ∃ slot,
      Ring.dist buffer.headPtrQ slot = position ∧
        position < buffer.occupancy ∧
        Holds (buffer.storeBufferQ slot) item := by
  have inside := (List.getElem?_eq_some_iff.mp found).1
  rw [represents.length] at inside
  have fits := Nat.lt_of_lt_of_le inside buffer.occupancy_le
  obtain ⟨slot, atDistance⟩ :=
    Ring.exists_dist buffer.headPtrQ fits
  obtain ⟨held, atPosition, holds⟩ :=
    represents.holds slot (by rwa [atDistance])
  rw [atDistance, found] at atPosition
  obtain rfl := Option.some.inj atPosition
  exact ⟨slot, atDistance, inside, holds⟩

section Marks

variable {slot : StoreBufferIdx} {item : DrainItem}
  (holds : Holds (buffer.storeBufferQ slot) item)
  (notFilled : ¬ buffer.fills input slot)
include holds notFilled

/-- A slot that is not filled keeps its store. -/
theorem Holds.store_storeBufferD :
    item.entry =
      ((buffer.storeBufferD input slot).addr,
        (buffer.storeBufferD input slot).data) := by
  rw [storeBufferD_addr, storeBufferD_data, if_neg notFilled,
    if_neg notFilled]
  exact holds.store

/-- A slot that the edge does not mark goes on holding its element. -/
theorem Holds.unmarked
    (notCommitted : (input.commit && decide (slot = input.idxCommit)) = false)
    (notDiscarded : input.discard slot = false) :
    Holds (buffer.storeBufferD input slot) item := by
  refine ⟨holds.store_storeBufferD notFilled, ?_⟩
  rw [holds.status, StoreBufferEntry.status, StoreBufferEntry.status,
    storeBufferD_committed, storeBufferD_discarded, notCommitted,
    notDiscarded]
  simp [notFilled]

/-- The slot that a commit names holds the committed element. -/
theorem Holds.committed
    (commits : (input.commit && decide (slot = input.idxCommit)) = true) :
    Holds (buffer.storeBufferD input slot)
      { item with status := .committed } := by
  refine ⟨holds.store_storeBufferD notFilled, ?_⟩
  simp [StoreBufferEntry.status, storeBufferD_committed, commits]

/-- A slot that a discard names, if it is live, holds the discarded
element. -/
theorem Holds.discarded
    (valid : (buffer.storeBufferQ slot).valid = true)
    (noCommit : input.commit = false)
    (named : buffer.liveAt slot = true → input.discard slot = true) :
    Holds (buffer.storeBufferD input slot) item.discardLive := by
  have committed :
      (buffer.storeBufferD input slot).committed =
        (buffer.storeBufferQ slot).committed := by
    simp [storeBufferD_committed, noCommit, notFilled]
  have discarded :
      (buffer.storeBufferD input slot).discarded =
        (input.discard slot || (buffer.storeBufferQ slot).discarded) := by
    simp [storeBufferD_discarded, notFilled]
  constructor
  · rw [← holds.store_storeBufferD notFilled]
    exact congrArg Prod.snd (DrainQueue.key_discardLive item)
  · unfold DrainQueue.Item.discardLive
    by_cases isLive : item.isLive = true
    · rw [if_pos isLive]
      rw [holds.isLive valid] at isLive
      have marked := named isLive
      simp only [liveAt, Bool.and_eq_true, Bool.not_eq_true'] at isLive
      simp [StoreBufferEntry.status, committed, discarded, marked,
        isLive.1.2]
    · rw [if_neg isLive, holds.status, StoreBufferEntry.status,
        StoreBufferEntry.status, committed, discarded]
      rw [holds.isLive valid, liveAt, valid] at isLive
      cases flag : (buffer.storeBufferQ slot).committed with
      | true =>
          rfl
      | false =>
          have old : (buffer.storeBufferQ slot).discarded = true := by
            simpa [flag] using isLive
          simp [old]

end Marks

namespace Represents

variable (represents : buffer.Represents queue)
  (wellFormed : buffer.WellFormed)
include represents wellFormed

/-- The head slot, when it is occupied, holds the front. -/
theorem head
    {item : DrainItem}
    (isHead : queue.head? = some item) :
    buffer.headEntry.valid = true ∧ Holds buffer.headEntry item := by
  rw [List.head?_eq_getElem?] at isHead
  obtain ⟨slot, atDistance, inside, holds⟩ :=
    represents.slot_of_getElem? isHead
  rw [Ring.dist_eq_zero] at atDistance
  subst atDistance
  exact ⟨wellFormed.headEntry_valid.mpr inside, holds⟩

/-- An empty queue has a free head slot. -/
theorem head_none (isEmpty : queue.head? = none) :
    buffer.headEntry.valid = false := by
  rw [List.head?_eq_none_iff] at isEmpty
  have length := represents.length
  rw [isEmpty, List.length_nil] at length
  by_contra valid
  have positive := wellFormed.headEntry_valid.mp (by simpa using valid)
  omega

/-- The reader takes the front exactly when the buffer hands it over. -/
theorem handed_eq :
    (DrainQueue.handed queue input.rspReady).map DrainQueue.Item.entry =
      if buffer.handsOver input then some (buffer.addrOut, buffer.dataWr)
      else none := by
  unfold DrainQueue.handed
  cases isHead : queue.head? with
  | none =>
      have free := represents.head_none wellFormed isHead
      simp [handsOver, rspValid, free]
  | some item =>
      obtain ⟨valid, holds⟩ := represents.head wellFormed isHead
      have committed := holds.isCommitted
      cases flag : buffer.headEntry.committed <;>
        cases ready : input.rspReady <;>
        simp [handsOver, rspValid, addrOut, dataWr, valid, flag, ready,
          DrainQueue.Item.isHanded, committed, Option.filter, holds.store]

/-- The front leaves exactly when the buffer frees its head. -/
theorem departures_eq :
    DrainQueue.departures queue input.rspReady =
      if buffer.dequeues input = true then 1 else 0 := by
  unfold DrainQueue.departures
  cases isHead : queue.head? with
  | none =>
      have free := represents.head_none wellFormed isHead
      simp [dequeues, handsOver, drops, rspValid, free]
  | some item =>
      obtain ⟨valid, holds⟩ := represents.head wellFormed isHead
      have departs : item.departs input.rspReady = buffer.dequeues input := by
        unfold DrainQueue.Item.departs DrainQueue.Item.isHanded
        rw [holds.isCommitted, holds.status, StoreBufferEntry.status,
          dequeues, handsOver, drops, rspValid, valid]
        cases buffer.headEntry.committed <;>
          cases buffer.headEntry.discarded <;>
          cases input.rspReady <;> rfl
      simp [departs]

/-- A commit names the oldest live element of the queue. -/
theorem oldestLiveAt
    (follows : buffer.Follows input)
    (commits : input.commit = true) :
    ∃ item,
      DrainQueue.OldestLiveAt queue
          (Ring.dist buffer.headPtrQ input.idxCommit) item ∧
        Holds (buffer.storeBufferQ input.idxCommit) item := by
  have isLive := follows.commitLive commits
  have valid : (buffer.storeBufferQ input.idxCommit).valid = true := by
    simp only [liveAt, Bool.and_eq_true] at isLive
    exact isLive.1.1
  have inside := (wellFormed input.idxCommit).mp valid
  obtain ⟨item, found, holds⟩ := represents.holds _ inside
  refine ⟨item, ⟨found, (holds.isLive valid).trans isLive, ?_⟩, holds⟩
  intro earlier other before foundOther
  obtain ⟨slot, atDistance, insideOther, holdsOther⟩ :=
    represents.slot_of_getElem? foundOther
  have validOther := (wellFormed slot).mpr (by rwa [atDistance])
  by_contra otherLive
  simp only [Bool.not_eq_false] at otherLive
  rw [holdsOther.isLive validOther] at otherLive
  have least := follows.commitOldest commits slot otherLive
  omega

/-- The slot of an element that stays, after the edge. -/
theorem holds_staying
    (follows : buffer.Follows input)
    {slot : StoreBufferIdx}
    (inside : Ring.dist buffer.headPtrQ slot < buffer.occupancy) :
    ∃ item,
      (DrainQueue.decided (buffer.drainInput input)
          queue)[Ring.dist buffer.headPtrQ slot]? = some item ∧
        Holds (buffer.storeBufferD input slot) item := by
  have notFilled : ¬ buffer.fills input slot := by
    rw [WellFormed.fills_iff]
    omega
  have valid := (wellFormed slot).mpr inside
  obtain ⟨item, found, holds⟩ := represents.holds slot inside
  cases discarding : discards input with
  | true =>
      have noCommit := (follows.discardAlone discarding).2
      refine ⟨item.discardLive, ?_,
        holds.discarded notFilled valid noCommit
          (follows.discardAll discarding slot)⟩
      simp [DrainQueue.decided, DrainQueue.afterCommit, drainInput,
        discarding, noCommit, found]
  | false =>
      have unnamed : input.discard slot = false := by
        simp only [discards, List.any_eq_false, List.mem_finRange,
          true_implies] at discarding
        simpa using discarding slot
      cases commits : input.commit with
      | true =>
          obtain ⟨oldest, oldestAt, holdsOldest⟩ :=
            represents.oldestLiveAt wellFormed follows commits
          have afterwards :=
            oldestAt.getElem?_commitOldest (Ring.dist buffer.headPtrQ slot)
          by_cases isOldest : slot = input.idxCommit
          · subst isOldest
            rw [if_pos rfl] at afterwards
            refine ⟨{ oldest with status := .committed }, ?_,
              holdsOldest.committed notFilled (by simp [commits])⟩
            simpa [DrainQueue.decided, DrainQueue.afterCommit, drainInput,
              discarding, commits] using afterwards
          · have apart :
                ¬ Ring.dist buffer.headPtrQ slot =
                  Ring.dist buffer.headPtrQ input.idxCommit :=
              fun same => isOldest (Ring.dist_injective same)
            rw [if_neg apart, found] at afterwards
            refine ⟨item, ?_,
              holds.unmarked notFilled (by simp [isOldest]) unnamed⟩
            simpa [DrainQueue.decided, DrainQueue.afterCommit, drainInput,
              discarding, commits] using afterwards
      | false =>
          refine ⟨item, ?_,
            holds.unmarked notFilled (by simp [commits]) unnamed⟩
          simp [DrainQueue.decided, DrainQueue.afterCommit, drainInput,
            discarding, commits, found]

omit represents wellFormed in
/-- The slot of an element that arrives, after the edge. -/
theorem holds_arriving
    (follows : buffer.Follows input)
    (wellFormed : buffer.WellFormed)
    {slot : StoreBufferIdx}
    (filled : buffer.fills input slot)
    (cycle : Nat) :
    Holds (buffer.storeBufferD input slot)
      { entry := (input.addr, input.data)
        insertedAt := cycle
        status := .live } := by
  have free := wellFormed.fills_free filled
  have notCommitted :
      (input.commit && decide (slot = input.idxCommit)) = false := by
    cases commits : input.commit with
    | false =>
        rfl
    | true =>
        have isLive := follows.commitLive commits
        have apart : slot ≠ input.idxCommit := by
          rintro rfl
          simp [liveAt, free] at isLive
        simp [apart]
  have notDiscarded : input.discard slot = false := by
    by_contra named
    have discarding : discards input = true :=
      List.any_eq_true.mpr
        ⟨slot, List.mem_finRange slot, by simpa using named⟩
    have alone := (follows.discardAlone discarding).1
    rw [filled.1] at alone
    cases alone
  constructor
  · rw [storeBufferD_addr, storeBufferD_data, if_pos filled, if_pos filled]
  · simp [StoreBufferEntry.status, storeBufferD_committed,
      storeBufferD_discarded, notCommitted, notDiscarded, filled]

omit represents wellFormed in
/-- One element arrives exactly when a store is inserted. -/
theorem arrivals_eq (cycle : Nat) :
    DrainQueue.arrivals cycle (buffer.drainInput input) =
      if buffer.inserts input = true then
        [{ entry := (input.addr, input.data)
           insertedAt := cycle
           status := .live }]
      else [] := by
  unfold DrainQueue.arrivals drainInput
  by_cases inserts : buffer.inserts input = true <;> simp [inserts]

omit represents in
/-- A slot that is occupied only after the edge has been filled by it. -/
theorem fills_of_arrives
    {slot : StoreBufferIdx}
    (valid : (buffer.storeBufferD input slot).valid = true)
    (arrives : ¬ Ring.dist buffer.headPtrQ slot < buffer.occupancy) :
    buffer.fills input slot := by
  rcases (storeBufferD_valid.mp valid).2 with fills | before
  · exact fills
  · exact (arrives ((wellFormed slot).mp before)).elim

/-- Every clock edge of the buffer is one cycle of the drain queue. -/
theorem step
    (follows : buffer.Follows input)
    (cycle : Nat) :
    (buffer.clock input).Represents
      (DrainQueue.step cycle (buffer.drainInput input) queue) := by
  obtain ⟨_, counted⟩ := wellFormed.preserved input
  have leaving :
      DrainQueue.departures queue (buffer.drainInput input).ready = _ :=
    represents.departures_eq wellFormed
  have positive :
      buffer.dequeues input = true → 0 < buffer.occupancy :=
    wellFormed.occupancy_pos
  constructor
  · rw [DrainQueue.length_step, leaving, arrivals_eq, represents.length,
      counted]
    by_cases inserts : buffer.inserts input = true <;>
      by_cases dequeues : buffer.dequeues input = true <;>
      simp only [inserts, dequeues, if_true, if_false, Bool.false_eq_true,
        List.length_cons, List.length_nil]
    · have := positive dequeues
      omega
    · omega
    · omega
    · omega
  · intro slot inside
    have valid : (buffer.storeBufferD input slot).valid = true :=
      ((wellFormed.preserved input).1 slot).mpr inside
    have shift :=
      WellFormed.dist_headPtrD (storeBufferD_valid.mp valid).1
    change
      ∃ item,
        (DrainQueue.step cycle (buffer.drainInput input)
            queue)[Ring.dist (buffer.headPtrD input) slot]? = some item ∧
          Holds (buffer.storeBufferD input slot) item
    rw [DrainQueue.getElem?_step, leaving, shift, represents.length]
    by_cases stays : Ring.dist buffer.headPtrQ slot < buffer.occupancy
    · rw [if_pos stays]
      exact represents.holds_staying wellFormed follows stays
    · have filled := fills_of_arrives wellFormed valid stays
      rw [if_neg stays, arrivals_eq, if_pos filled.1,
        (WellFormed.fills_iff.mp filled).2, Nat.sub_self]
      exact ⟨_, rfl, holds_arriving follows wellFormed filled cycle⟩

end Represents

/-- A slot that is filled was not in front of the head. -/
theorem not_frees_of_fills
    {slot : StoreBufferIdx}
    (wellFormed : buffer.WellFormed)
    (filled : buffer.fills input slot) :
    ¬ buffer.frees input slot := by
  rintro ⟨dequeues, rfl⟩
  have free := wellFormed.fills_free filled
  have positive := wellFormed.occupancy_pos dequeues
  rw [← wellFormed.headEntry_valid] at positive
  change buffer.headEntry.valid = false at free
  rw [positive] at free
  cases free

/-- Only a decided store leaves the head. -/
theorem not_frees_of_liveAt
    {slot : StoreBufferIdx}
    (isLive : buffer.liveAt slot = true) :
    ¬ buffer.frees input slot := by
  rintro ⟨dequeues, rfl⟩
  simp only [liveAt, Bool.and_eq_true, Bool.not_eq_true'] at isLive
  have decided :
      buffer.headEntry.committed = true ∨
        buffer.headEntry.discarded = true := by
    simp only [StoreBuffer.dequeues, handsOver, drops, rspValid,
      Bool.or_eq_true, Bool.and_eq_true] at dequeues
    rcases dequeues with handed | dropped
    · exact .inl handed.1.2
    · exact .inr dropped.2.2
  unfold headEntry at decided
  simp [isLive] at decided

/-- Which slots are live after a clock edge. -/
theorem liveAt_clock
    {slot : StoreBufferIdx}
    (wellFormed : buffer.WellFormed)
    (follows : buffer.Follows input) :
    (buffer.clock input).liveAt slot = true ↔
      buffer.fills input slot ∨
        (buffer.liveAt slot = true ∧
          ¬ (input.commit = true ∧ slot = input.idxCommit) ∧
          input.discard slot = false) := by
  have flags :
      (buffer.clock input).liveAt slot =
        ((buffer.storeBufferD input slot).valid &&
            !(buffer.storeBufferD input slot).committed &&
          !(buffer.storeBufferD input slot).discarded) :=
    rfl
  by_cases filled : buffer.fills input slot
  · have holds := Represents.holds_arriving follows wellFormed filled 0
    have valid : (buffer.storeBufferD input slot).valid = true :=
      storeBufferD_valid.mpr
        ⟨not_frees_of_fills wellFormed filled, .inl filled⟩
    have status := holds.status
    simp only [filled, true_or, iff_true, flags, valid, Bool.true_and]
    unfold StoreBufferEntry.status at status
    cases committed : (buffer.storeBufferD input slot).committed <;>
      cases discarded : (buffer.storeBufferD input slot).discarded <;>
      simp [committed, discarded] at status ⊢
  · rw [flags]
    simp only [filled, false_or, Bool.and_eq_true, Bool.not_eq_true',
      storeBufferD_valid, storeBufferD_committed, storeBufferD_discarded,
      decide_false, Bool.not_false, Bool.true_and, Bool.or_eq_false_iff,
      Bool.and_eq_false_iff, decide_eq_false_iff_not]
    constructor
    · rintro ⟨⟨⟨_, valid⟩, named, notCommitted⟩, notNamed, notDiscarded⟩
      refine ⟨?_, ?_, notNamed⟩
      · simp [liveAt, valid, notCommitted, notDiscarded]
      · rintro ⟨commits, isSlot⟩
        rcases named with noCommit | notSlot
        · rw [commits] at noCommit
          cases noCommit
        · exact notSlot isSlot
    · rintro ⟨isLive, notCommitted, notNamed⟩
      have stays : ¬ buffer.frees input slot :=
        not_frees_of_liveAt isLive
      simp only [liveAt, Bool.and_eq_true, Bool.not_eq_true'] at isLive
      refine ⟨⟨⟨stays, isLive.1.1⟩, ?_, isLive.1.2⟩, notNamed, isLive.2⟩
      by_contra both
      simp only [not_or, Bool.not_eq_false, not_not] at both
      exact notCommitted both

/-- A store presented to a reader that is not ready is presented again. -/
theorem rspValid_held
    (wellFormed : buffer.WellFormed)
    (presented : buffer.rspValid = true)
    (notReady : input.rspReady = false) :
    (buffer.clock input).rspValid = true ∧
      (buffer.clock input).addrOut = buffer.addrOut ∧
      (buffer.clock input).dataWr = buffer.dataWr := by
  have flags := presented
  simp only [rspValid, Bool.and_eq_true] at flags
  have stays : buffer.dequeues input = false := by
    simp [dequeues, handsOver, drops, presented, notReady]
  have notFreed : ¬ buffer.frees input buffer.headPtrQ := by
    rintro ⟨freed, _⟩
    rw [stays] at freed
    cases freed
  have notFilled : ¬ buffer.fills input buffer.headPtrQ := by
    intro filled
    have free := wellFormed.fills_free filled
    change buffer.headEntry.valid = false at free
    rw [flags.1] at free
    cases free
  have sameHead :
      (buffer.clock input).headEntry =
        buffer.storeBufferD input buffer.headPtrQ := by
    unfold headEntry clock headPtrD
    rw [show (buffer.handsOver input || buffer.drops) = false from stays]
    rfl
  have valid : (buffer.clock input).rspValid = true := by
    rw [rspValid, sameHead, Bool.and_eq_true]
    refine ⟨storeBufferD_valid.mpr ⟨notFreed, .inr flags.1⟩, ?_⟩
    have committed :
        (buffer.storeBufferQ buffer.headPtrQ).committed = true :=
      flags.2
    simp [storeBufferD_committed, notFilled, committed]
  refine ⟨valid, ?_, ?_⟩
  · rw [addrOut, addrOut, valid, presented, sameHead, storeBufferD_addr,
      if_neg notFilled]
    rfl
  · rw [dataWr, dataWr, valid, presented, sameHead, storeBufferD_data,
      if_neg notFilled]
    rfl

section Run

variable
  {stimulus : Nat → StoreBufferInput}

/-- In every state of a run the occupied slots form a window. -/
theorem run_wellFormed (stimulus : Nat → StoreBufferInput) (cycle : Nat) :
    (Clocked.run clock reset stimulus cycle).WellFormed := by
  induction cycle with
  | zero =>
      exact wellFormed_reset
  | succ cycle inductionHypothesis =>
      exact (inductionHypothesis.preserved (stimulus cycle)).1

/-- A run that followed the protocol so far is the run of the queue. -/
theorem run_represents
    {cycle : Nat}
    (follows :
      ∀ earlier,
        earlier < cycle →
        (Clocked.run clock reset stimulus earlier).Follows
          (stimulus earlier)) :
    (Clocked.run clock reset stimulus cycle).Represents
      (drain stimulus cycle) := by
  induction cycle with
  | zero =>
      exact represents_reset
  | succ cycle inductionHypothesis =>
      have represents :=
        inductionHypothesis fun earlier before =>
          follows earlier (Nat.lt_succ_of_lt before)
      exact represents.step (run_wellFormed stimulus cycle)
        (follows cycle (Nat.lt_succ_self _)) cycle

/-- The buffer hands over what the reader of the queue takes. -/
theorem handedOver_eq
    {cycle : Nat}
    (follows :
      ∀ earlier,
        earlier < cycle →
        (Clocked.run clock reset stimulus earlier).Follows
          (stimulus earlier)) :
    handedOver stimulus cycle =
      (DrainQueue.handedLog (drainStimulus stimulus) cycle).map Prod.snd := by
  unfold handedOver DrainQueue.handedLog
  rw [Clocked.map_collect]
  apply Clocked.collect_congr
  intro earlier before
  have represents :=
    run_represents fun first inFront =>
      follows first (Nat.lt_trans inFront before)
  have handed :
      (DrainQueue.handed _ (stimulus earlier).rspReady).map _ = _ :=
    represents.handed_eq (run_wellFormed stimulus earlier)
  rw [Option.map_map]
  exact handed.symm

/-- The commits of a run name what the commits of the queue take. -/
theorem committedStores_eq
    {cycle : Nat}
    (follows :
      ∀ earlier,
        earlier < cycle →
        (Clocked.run clock reset stimulus earlier).Follows
          (stimulus earlier)) :
    committedStores stimulus cycle =
      (DrainQueue.commitLog (drainStimulus stimulus) cycle).map Prod.snd := by
  unfold committedStores DrainQueue.commitLog
  rw [Clocked.map_collect]
  apply Clocked.collect_congr
  intro earlier before
  change
    (if (stimulus earlier).commit = true then _ else none) =
      (if (stimulus earlier).commit = true then _ else none).map Prod.snd
  by_cases commits : (stimulus earlier).commit = true
  · have represents :=
      run_represents fun first inFront =>
        follows first (Nat.lt_trans inFront before)
    obtain ⟨item, oldestAt, holds⟩ :=
      represents.oldestLiveAt (run_wellFormed stimulus earlier)
        (follows earlier before) commits
    have found := oldestAt.oldestLive
    change DrainQueue.oldestLive (DrainQueue.history _ earlier) = _ at found
    rw [if_pos commits, if_pos commits, found, ← holds.store]
    rfl
  · rw [if_neg commits, if_neg commits]
    rfl

/-- What a run under the protocol handed over, followed by what still waits,
is what it committed. -/
theorem handedOver_append_waiting
    {cycle : Nat}
    (follows :
      ∀ earlier,
        earlier < cycle →
        (Clocked.run clock reset stimulus earlier).Follows
          (stimulus earlier)) :
    handedOver stimulus cycle ++
        (DrainQueue.waiting (drain stimulus cycle)).map Prod.snd =
      committedStores stimulus cycle := by
  rw [handedOver_eq follows, committedStores_eq follows, ← List.map_append]
  exact congrArg _
    (DrainQueue.handed_append_waiting (drainStimulus stimulus) cycle)

/--
The store buffer drains exactly the committed stores, in order.  In every
cycle of every run under the protocol:

* what was handed over, followed by the committed stores that still wait in
  the buffer, is what was committed, as address and data pairs and as distinct
  insertions in the order in which they were inserted;
* an accepted insertion takes a free slot;
* a store that is live in a cycle with a discard is never handed over;
* what is presented is held until the reader is ready.
-/
theorem drains_committed
    (follows :
      ∀ cycle,
        (Clocked.run clock reset stimulus cycle).Follows (stimulus cycle))
    (cycle : Nat) :
    let buffer := Clocked.run clock reset stimulus cycle
    let queue := drain stimulus cycle
    let handed := DrainQueue.handedLog (drainStimulus stimulus)
    let committed := DrainQueue.commitLog (drainStimulus stimulus)
    buffer.Represents queue ∧
      handedOver stimulus cycle = (handed cycle).map Prod.snd ∧
      committedStores stimulus cycle = (committed cycle).map Prod.snd ∧
      handed cycle ++ DrainQueue.waiting queue = committed cycle ∧
      (committed cycle).Pairwise (fun before after => before.1 < after.1) ∧
      (∀ insertion ∈ committed cycle,
        (Clocked.run clock reset stimulus insertion.1).inserts
            (stimulus insertion.1) = true ∧
          insertion.2 =
            ((stimulus insertion.1).addr, (stimulus insertion.1).data)) ∧
      (buffer.inserts (stimulus cycle) = true →
        (buffer.storeBufferQ buffer.tailPtrQ).valid = false) ∧
      (∀ item ∈ queue,
        item.isLive = true →
        discards (stimulus cycle) = true →
        ∀ later, item.key ∉ handed later) ∧
      (buffer.rspValid = true →
        (stimulus cycle).rspReady = false →
        (Clocked.run clock reset stimulus (cycle + 1)).rspValid = true ∧
          (Clocked.run clock reset stimulus (cycle + 1)).addrOut =
            buffer.addrOut ∧
          (Clocked.run clock reset stimulus (cycle + 1)).dataWr =
            buffer.dataWr) := by
  have wellFormed := run_wellFormed stimulus cycle
  obtain ⟨sorted, genuine⟩ :=
    DrainQueue.commitLog_sorted (drainStimulus stimulus) cycle
  have followed :
      ∀ earlier,
        earlier < cycle →
        (Clocked.run clock reset stimulus earlier).Follows
          (stimulus earlier) :=
    fun earlier _ => follows earlier
  refine ⟨run_represents followed, handedOver_eq followed,
    committedStores_eq followed,
    DrainQueue.handed_append_waiting (drainStimulus stimulus) cycle, sorted,
    ?_, ?_, ?_, rspValid_held wellFormed⟩
  · intro insertion member
    have inserted := genuine insertion member
    simp only [drainStimulus, drainInput] at inserted
    split at inserted
    · rename_i inserts
      exact ⟨inserts, (Option.some.inj inserted).symm⟩
    · cases inserted
  · intro inserts
    exact wellFormed.fills_free ⟨inserts, rfl⟩
  · intro item member isLive discarding later
    exact DrainQueue.discard_not_handed member isLive discarding
      ((follows cycle).discardAlone discarding).2 later

end Run

/-- A cycle in which nothing is asked of the buffer. -/
def idleInput : StoreBufferInput where
  data := 0
  addr := 0
  reqValid := false
  rspReady := false
  commit := false
  idxCommit := 0
  discard := fun _ => false

/--
Three stores are inserted, the first two are committed and the third one is
discarded before the reader is ready.
-/
def threeStores (cycle : Nat) : StoreBufferInput :=
  [ { idleInput with reqValid := true, addr := 8, data := 5 },
    { idleInput with reqValid := true, addr := 12, data := 6 },
    { idleInput with
        reqValid := true, addr := 16, data := 7, commit := true,
        idxCommit := 0 },
    { idleInput with commit := true, idxCommit := 1 },
    { idleInput with discard := fun slot => slot == 2 } ].getD cycle
    { idleInput with rspReady := true }

/-- That run follows the protocol. -/
theorem threeStores_follows (cycle : Nat) :
    (Clocked.run clock reset threeStores cycle).Follows
      (threeStores cycle) := by
  rcases Nat.lt_or_ge cycle 5 with early | late
  · have follows :
        ∀ cycle,
          cycle < 5 →
          (Clocked.run clock reset threeStores cycle).Follows
            (threeStores cycle) := by
      decide +kernel
    exact follows cycle early
  · have reads :
        threeStores cycle = { idleInput with rspReady := true } :=
      List.getD_eq_default _ _ late
    rw [reads]
    constructor <;> intro pulse <;> cases pulse

/-- The two committed stores have been handed over after eight cycles; the
discarded one never is. -/
theorem drains_committed_threeStores :
    handedOver threeStores 8 = [(8, 5), (12, 6)] ∧
      committedStores threeStores 8 = [(8, 5), (12, 6)] ∧
      ∀ later,
        (2, 16, 7) ∉
          DrainQueue.handedLog (drainStimulus threeStores) later := by
  obtain ⟨_, handed, committed, logged, _⟩ :=
    drains_committed threeStores_follows 8
  obtain ⟨_, _, _, _, _, _, _, discarded, _⟩ :=
    drains_committed threeStores_follows 4
  have taken : handedOver threeStores 8 = [(8, 5), (12, 6)] := by
    decide +kernel
  have empty : drain threeStores 8 = [] := by
    decide +kernel
  have live :
      { entry := (16, 7), insertedAt := 2, status := .live } ∈
        drain threeStores 4 := by
    decide +kernel
  have allTaken :
      committedStores threeStores 8 = handedOver threeStores 8 := by
    rw [committed, ← logged, empty, handed]
    exact congrArg _ (List.append_nil _)
  exact ⟨taken, allTaken.trans taken, discarded _ live rfl (by decide)⟩

end StoreBuffer

end Tartaruga
