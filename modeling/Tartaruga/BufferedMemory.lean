import Tartaruga.MemoryMachine
import Tartaruga.StoreBufferForwarding

namespace Tartaruga

/-!
# The memory behind the store buffer

The committed stores that still wait in the store buffer are ahead of the
memory that the data cache shows.  The youngest of them to a word decides what
the word is going to be.
-/

namespace Memory

variable {memory : Memory} {addr : Bus32} {stores first second : List Store}

/-- The memory after some stores, oldest first. -/
def performAll (memory : Memory) (stores : List Store) : Memory :=
  stores.foldl (fun memory store => memory.writeMem store.1 store.2) memory

/-- Stores are performed one group after the other. -/
theorem performAll_append :
    memory.performAll (first ++ second) =
      (memory.performAll first).performAll second :=
  List.foldl_append

/-- One more store is performed at the end. -/
theorem performAll_toList (store : Option Store) :
    memory.performAll (stores ++ store.toList) =
      (memory.performAll stores).perform store := by
  rw [performAll_append]
  cases store with
  | none =>
      rfl
  | some store =>
      rfl

/-- A word that no store meets stays. -/
theorem readMem_performAll_of_silent
    (silent : ∀ store ∈ stores, ¬ Meets store addr) :
    (memory.performAll stores).readMem addr = memory.readMem addr := by
  induction stores generalizing memory with
  | nil =>
      rfl
  | cons store rest inductionHypothesis =>
      have here := silent store (List.mem_cons_self ..)
      exact
        (inductionHypothesis fun other member =>
          silent other (List.mem_cons_of_mem _ member)).trans
          (readMem_of_not_meets here)

/-- The last store that meets a word decides what it holds. -/
theorem readMem_performAll_of_last
    {store : Store}
    (isWord : IsWord addr)
    (meets : Meets store addr)
    (silent : ∀ other ∈ second, ¬ Meets other addr) :
    (memory.performAll (first ++ store :: second)).readMem addr =
      store.2 := by
  rw [performAll_append]
  exact
    (readMem_performAll_of_silent silent).trans
      (readMem_of_meets isWord meets)

end Memory

namespace StoreBuffer

variable {buffer : StoreBuffer} {queue : List DrainItem} {addr : Bus32}
  {slot other : StoreBufferIdx} {memory : Memory}

/-- The committed stores that still wait, oldest first. -/
def waitingStores (queue : List DrainItem) : List Store :=
  (DrainQueue.waiting queue).map Prod.snd

/-- They are the committed elements. -/
theorem waitingStores_eq (queue : List DrainItem) :
    waitingStores queue =
      (queue.filter DrainQueue.Item.isCommitted).map
        DrainQueue.Item.entry := by
  rw [waitingStores, DrainQueue.waiting, List.map_map]
  rfl

/-- Every store in the buffer names a word of the array, or nothing inside
it. -/
def NamesWords (buffer : StoreBuffer) : Prop :=
  ∀ slot,
    (buffer.storeBufferQ slot).valid = true →
    Memory.Placed (buffer.storeBufferQ slot).addr

/-- Slots further from the head were taken later. -/
theorem WellFormed.youngerThan
    (wellFormed : buffer.WellFormed)
    (valid : (buffer.storeBufferQ slot).valid = true)
    (validOther : (buffer.storeBufferQ other).valid = true)
    (later :
      Ring.dist buffer.headPtrQ slot < Ring.dist buffer.headPtrQ other) :
    buffer.youngerThan slot other := by
  have inside := (wellFormed slot).mp valid
  have insideOther := (wellFormed other).mp validOther
  rw [StoreBuffer.youngerThan]
  cases ready : buffer.reqReady with
  | false =>
      rwa [(full_iff.mp ready).1]
  | true =>
      rw [occupancy, if_pos ready] at inside insideOther
      exact (Ring.dist_from_end_lt_iff inside insideOther).mpr later

/-- The store that the bypass finds was not discarded, if the discarded ones
are hidden. -/
theorem not_discarded_of_hidden
    (hidden : buffer.DiscardedHidden addr)
    (found : buffer.bypassSlot addr = some slot) :
    (buffer.storeBufferQ slot).discarded = false := by
  obtain ⟨notTail, isMatch, youngest⟩ := bypassSlot_eq_some.mp found
  by_contra discarded
  obtain ⟨younger, behind, isYounger, _⟩ :=
    hidden slot notTail isMatch (by simpa using discarded)
  rw [youngest younger behind] at isYounger
  cases isYounger

section Queue

variable (wellFormed : buffer.WellFormed)
  (represents : buffer.Represents queue)
  (words : buffer.NamesWords)
  (isWord : Memory.IsWord addr)
include wellFormed represents words isWord

/-- An element that meets the word is a store to its address. -/
theorem slot_of_meets
    {position : Nat}
    {item : DrainItem}
    (held : queue[position]? = some item)
    (meets : Memory.Meets item.entry addr) :
    ∃ slot,
      Ring.dist buffer.headPtrQ slot = position ∧
        buffer.matchesAt addr slot = true := by
  obtain ⟨slot, isAt, within, holds⟩ := represents.slot_of_getElem? held
  have valid := (wellFormed slot).mpr (by rwa [isAt])
  rw [holds.store] at meets
  have same : (buffer.storeBufferQ slot).addr = addr :=
    (Memory.meets_iff isWord (words slot valid)).mp meets
  refine ⟨slot, isAt, ?_⟩
  simp [matchesAt, valid, same]

/-- A word that no store of the buffer names stays as it is. -/
theorem readMem_waiting_of_none
    (none : ∀ slot, buffer.matchesAt addr slot = false) :
    (memory.performAll (waitingStores queue)).readMem addr =
      memory.readMem addr := by
  apply Memory.readMem_performAll_of_silent
  intro store member meets
  rw [waitingStores_eq] at member
  obtain ⟨item, inQueue, rfl⟩ := List.mem_map.mp member
  obtain ⟨position, held⟩ :=
    List.mem_iff_getElem?.mp (List.mem_of_mem_filter inQueue)
  obtain ⟨slot, _, isMatch⟩ :=
    slot_of_meets wellFormed represents words isWord held meets
  rw [none slot] at isMatch
  cases isMatch

/-- A committed store that the bypass finds is what the word is going to
be. -/
theorem readMem_waiting_of_found
    (found : buffer.bypassSlot addr = some slot)
    (committed : (buffer.storeBufferQ slot).committed = true) :
    (memory.performAll (waitingStores queue)).readMem addr =
      (buffer.storeBufferQ slot).data := by
  obtain ⟨_, isMatch, youngest⟩ := bypassSlot_eq_some.mp found
  have valid := valid_of_matchesAt isMatch
  have sameAddr : (buffer.storeBufferQ slot).addr = addr := by
    simp only [matchesAt, Bool.and_eq_true, beq_iff_eq] at isMatch
    exact isMatch.2
  obtain ⟨item, held, holds⟩ :=
    represents.holds slot ((wellFormed slot).mp valid)
  obtain ⟨inside, isItem⟩ := List.getElem?_eq_some_iff.mp held
  have split :
      queue =
        queue.take (Ring.dist buffer.headPtrQ slot) ++
          item :: queue.drop (Ring.dist buffer.headPtrQ slot + 1) := by
    rw [← isItem, ← List.drop_eq_getElem_cons inside, List.take_append_drop]
  have waits : item.isCommitted = true := holds.isCommitted.trans committed
  have stores :
      waitingStores queue =
        waitingStores (queue.take (Ring.dist buffer.headPtrQ slot)) ++
          item.entry ::
            waitingStores
              (queue.drop (Ring.dist buffer.headPtrQ slot + 1)) := by
    simp only [waitingStores_eq]
    conv_lhs => rw [split]
    rw [List.filter_append, List.filter_cons_of_pos waits, List.map_append,
      List.map_cons]
  have meets : Memory.Meets item.entry addr := by
    rw [holds.store]
    exact (Memory.meets_iff isWord (words slot valid)).mpr sameAddr
  have data : item.entry.2 = (buffer.storeBufferQ slot).data := by
    rw [holds.store]
  rw [stores, ← data]
  apply Memory.readMem_performAll_of_last isWord meets
  intro store member other
  rw [waitingStores_eq] at member
  obtain ⟨later, inQueue, rfl⟩ := List.mem_map.mp member
  obtain ⟨offset, heldLater⟩ :=
    List.mem_iff_getElem?.mp (List.mem_of_mem_filter inQueue)
  rw [List.getElem?_drop] at heldLater
  obtain ⟨younger, isAt, isYounger⟩ :=
    slot_of_meets wellFormed represents words isWord heldLater other
  have behind : buffer.youngerThan slot younger :=
    wellFormed.youngerThan valid (valid_of_matchesAt isYounger) (by omega)
  rw [youngest younger behind] at isYounger
  cases isYounger

end Queue

/-- A committed store stands in front of every live one. -/
theorem Represents.committed_before_live
    (represents : buffer.Represents queue)
    (wellFormed : buffer.WellFormed)
    (ordered : DrainQueue.Ordered queue)
    (valid : (buffer.storeBufferQ slot).valid = true)
    (committed : (buffer.storeBufferQ slot).committed = true)
    (isLive : buffer.liveAt other = true) :
    Ring.dist buffer.headPtrQ slot < Ring.dist buffer.headPtrQ other := by
  have validOther : (buffer.storeBufferQ other).valid = true := by
    simp only [liveAt, Bool.and_eq_true] at isLive
    exact isLive.1.1
  obtain ⟨item, held, holds⟩ :=
    represents.holds slot ((wellFormed slot).mp valid)
  obtain ⟨live, heldLive, holdsLive⟩ :=
    represents.holds other ((wellFormed other).mp validOther)
  have waits : item.isCommitted = true := holds.isCommitted.trans committed
  have lives : live.isLive = true :=
    (holdsLive.isLive validOther).trans isLive
  by_contra notBefore
  rcases Nat.lt_or_eq_of_le (Nat.le_of_not_lt notBefore) with behind | same
  · obtain ⟨inside, rfl⟩ := List.getElem?_eq_some_iff.mp held
    obtain ⟨insideLive, rfl⟩ := List.getElem?_eq_some_iff.mp heldLive
    have decided :=
      List.pairwise_iff_getElem.mp ordered _ _ insideLive inside behind waits
    rw [lives] at decided
    cases decided
  · obtain rfl := Ring.dist_injective same
    simp only [liveAt, committed, Bool.not_true, Bool.and_false,
      Bool.false_and] at isLive
    cases isLive

end StoreBuffer

end Tartaruga
