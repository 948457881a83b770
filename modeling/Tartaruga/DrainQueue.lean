import Tartaruga.Clocked
import Mathlib.Data.List.Nodup

namespace DrainQueue

/-!
# Queues that drain what was committed

An element is inserted at the back and is live until it is either committed or
discarded.  Commits take the oldest live element, a discard takes all of them.
The front leaves when it is discarded, or when it is committed and the reader
is ready.
-/

variable {Entry : Type}

/-- What became of an element so far. -/
inductive Status where
  | live
  | committed
  | discarded
  deriving Repr, DecidableEq

/-- An element, with the cycle of its insertion. -/
structure Item (Entry : Type) where
  entry : Entry
  insertedAt : Nat
  status : Status
  deriving Repr, DecidableEq

/-- The requests of one cycle. -/
structure Input (Entry : Type) where
  insert : Option Entry
  ready : Bool
  commit : Bool
  discard : Bool
  deriving Repr, DecidableEq

/-- An insertion: its cycle and what was inserted. -/
def Item.key (item : Item Entry) : Nat × Entry :=
  (item.insertedAt, item.entry)

/-- The element is still undecided. -/
def Item.isLive (item : Item Entry) : Bool :=
  item.status == .live

/-- The element waits to be read. -/
def Item.isCommitted (item : Item Entry) : Bool :=
  item.status == .committed

/-- The reader takes the element when it stands at the front. -/
def Item.isHanded (item : Item Entry) (ready : Bool) : Bool :=
  item.isCommitted && ready

/-- The element leaves when it stands at the front. -/
def Item.departs (item : Item Entry) (ready : Bool) : Bool :=
  item.isHanded ready || item.status == .discarded

/-- The element the reader takes in this cycle. -/
def handed (queue : List (Item Entry)) (ready : Bool) : Option (Item Entry) :=
  queue.head?.filter fun item => item.isHanded ready

/-- How many elements leave at the front. -/
def departures (queue : List (Item Entry)) (ready : Bool) : Nat :=
  if queue.head?.any fun item => item.departs ready then 1 else 0

/-- The element a commit decides about. -/
def oldestLive (queue : List (Item Entry)) : Option (Item Entry) :=
  queue.find? Item.isLive

/-- Commit the oldest live element. -/
def commitOldest : List (Item Entry) → List (Item Entry)
  | [] => []
  | item :: rest =>
      if item.isLive then { item with status := .committed } :: rest
      else item :: commitOldest rest

/-- An element after a discard. -/
def Item.discardLive (item : Item Entry) : Item Entry :=
  if item.isLive then { item with status := .discarded } else item

/-- The queue after the commit of a cycle. -/
def afterCommit
    (input : Input Entry)
    (queue : List (Item Entry)) :
    List (Item Entry) :=
  if input.commit then commitOldest queue else queue

/-- The queue after the commit and the discard of a cycle. -/
def decided
    (input : Input Entry)
    (queue : List (Item Entry)) :
    List (Item Entry) :=
  if input.discard then (afterCommit input queue).map Item.discardLive
  else afterCommit input queue

/-- The elements that enter in this cycle. -/
def arrivals (cycle : Nat) (input : Input Entry) : List (Item Entry) :=
  input.insert.toList.map fun entry =>
    { entry := entry, insertedAt := cycle, status := .live }

/-- One cycle of the queue. -/
def step
    (cycle : Nat)
    (input : Input Entry)
    (queue : List (Item Entry)) :
    List (Item Entry) :=
  (decided input queue).drop (departures queue input.ready) ++
    arrivals cycle input

/-- The queue at the beginning of every cycle of a run. -/
def history (stimulus : Nat → Input Entry) : Nat → List (Item Entry)
  | 0 => []
  | cycle + 1 => step cycle (stimulus cycle) (history stimulus cycle)

/-- The insertions committed in the first cycles, in the order of their
commits. -/
def commitLog (stimulus : Nat → Input Entry) : Nat → List (Nat × Entry) :=
  Clocked.collect fun cycle =>
    if (stimulus cycle).commit then
      (oldestLive (history stimulus cycle)).map Item.key
    else
      none

/-- The insertions the reader took in the first cycles. -/
def handedLog (stimulus : Nat → Input Entry) : Nat → List (Nat × Entry) :=
  Clocked.collect fun cycle =>
    (handed (history stimulus cycle) (stimulus cycle).ready).map Item.key

/-- The committed insertions that still wait to be read. -/
def waiting (queue : List (Item Entry)) : List (Nat × Entry) :=
  (queue.filter Item.isCommitted).map Item.key

/-- Nothing committed stands behind something live. -/
def Ordered (queue : List (Item Entry)) : Prop :=
  queue.Pairwise fun before behind =>
    behind.isCommitted = true → before.isLive = false

section Step

variable {queue : List (Item Entry)} {input : Input Entry} {cycle : Nat}

/-- A commit decides about the status only. -/
theorem keys_commitOldest (queue : List (Item Entry)) :
    (commitOldest queue).map Item.key = queue.map Item.key := by
  induction queue with
  | nil =>
      rfl
  | cons item rest inductionHypothesis =>
      unfold commitOldest
      split
      · rfl
      · simp [inductionHypothesis]

@[simp] theorem key_discardLive (item : Item Entry) :
    item.discardLive.key = item.key := by
  unfold Item.discardLive
  split <;> rfl

/-- Decisions keep every element where it is. -/
theorem keys_decided :
    (decided input queue).map Item.key = queue.map Item.key := by
  unfold decided afterCommit
  by_cases commits : input.commit = true <;>
    by_cases discards : input.discard = true <;>
    simp [commits, discards, keys_commitOldest, Function.comp_def]

/-- The element at this position is the oldest live one. -/
structure OldestLiveAt
    (queue : List (Item Entry))
    (position : Nat)
    (item : Item Entry) :
    Prop where
  found : queue[position]? = some item
  isLive : item.isLive = true
  oldest :
    ∀ earlier other,
      earlier < position →
      queue[earlier]? = some other →
      other.isLive = false

/-- The search for the oldest live element finds it. -/
theorem OldestLiveAt.oldestLive
    {position : Nat}
    {item : Item Entry}
    (oldestAt : OldestLiveAt queue position item) :
    oldestLive queue = some item := by
  induction queue generalizing position with
  | nil =>
      cases oldestAt.found
  | cons head rest inductionHypothesis =>
      cases position with
      | zero =>
          obtain rfl : head = item := by simpa using oldestAt.found
          exact List.find?_cons_of_pos oldestAt.isLive
      | succ position =>
          have notLive := oldestAt.oldest 0 head (Nat.succ_pos _) rfl
          rw [DrainQueue.oldestLive, List.find?_cons_of_neg (by simp [notLive])]
          exact inductionHypothesis
            ⟨by simpa using oldestAt.found, oldestAt.isLive,
              fun earlier other before found =>
                oldestAt.oldest (earlier + 1) other
                  (Nat.succ_lt_succ before) (by simpa using found)⟩

/-- A commit touches the position of the oldest live element only. -/
theorem OldestLiveAt.getElem?_commitOldest
    {position : Nat}
    {item : Item Entry}
    (oldestAt : OldestLiveAt queue position item)
    (other : Nat) :
    (commitOldest queue)[other]? =
      if other = position then some { item with status := .committed }
      else queue[other]? := by
  induction queue generalizing position other with
  | nil =>
      cases oldestAt.found
  | cons head rest inductionHypothesis =>
      cases position with
      | zero =>
          obtain rfl : head = item := by simpa using oldestAt.found
          rw [commitOldest, if_pos oldestAt.isLive]
          cases other <;> simp
      | succ position =>
          have notLive := oldestAt.oldest 0 head (Nat.succ_pos _) rfl
          rw [commitOldest, if_neg (by simp [notLive])]
          cases other with
          | zero =>
              simp
          | succ other =>
              simpa using
                inductionHypothesis
                  ⟨by simpa using oldestAt.found, oldestAt.isLive,
                    fun earlier other before found =>
                      oldestAt.oldest (earlier + 1) other
                        (Nat.succ_lt_succ before) (by simpa using found)⟩
                  other

/-- A discard leaves the committed elements alone. -/
@[simp] theorem isCommitted_discardLive (item : Item Entry) :
    item.discardLive.isCommitted = item.isCommitted := by
  unfold Item.discardLive
  split
  · rename_i isLive
    simp only [Item.isLive, beq_iff_eq] at isLive
    simp [Item.isCommitted, isLive]
  · rfl

/-- A discard leaves nothing live. -/
@[simp] theorem isLive_discardLive (item : Item Entry) :
    item.discardLive.isLive = false := by
  unfold Item.discardLive
  split
  · rfl
  · rename_i notLive
    simpa using notLive

theorem waiting_cons (item : Item Entry) (rest : List (Item Entry)) :
    waiting (item :: rest) =
      if item.isCommitted then item.key :: waiting rest else waiting rest := by
  unfold waiting
  by_cases committed : item.isCommitted = true <;> simp [committed]

/-- Behind something live nothing is committed. -/
theorem waiting_of_live
    {item : Item Entry}
    (ordered : Ordered (item :: queue))
    (isLive : item.isLive = true) :
    waiting queue = [] := by
  have notCommitted :
      ∀ behind ∈ queue, behind.isCommitted = false := by
    intro behind member
    by_contra committed
    have before :=
      (List.pairwise_cons.mp ordered).1 behind member (by simpa using committed)
    rw [isLive] at before
    cases before
  simp only [waiting, List.map_eq_nil_iff, List.filter_eq_nil_iff]
  intro behind member
  simp [notCommitted behind member]

/-- A commit appends the oldest live element to those that wait. -/
theorem waiting_commitOldest (ordered : Ordered queue) :
    waiting (commitOldest queue) =
      waiting queue ++ ((oldestLive queue).map Item.key).toList := by
  induction queue with
  | nil =>
      rfl
  | cons item rest inductionHypothesis =>
      unfold commitOldest oldestLive
      by_cases isLive : item.isLive = true
      · have nothingBehind := waiting_of_live ordered isLive
        have undecided : item.isCommitted = false := by
          simp only [Item.isLive, beq_iff_eq] at isLive
          simp [Item.isCommitted, isLive]
        rw [if_pos isLive, List.find?_cons_of_pos isLive, waiting_cons,
          waiting_cons, nothingBehind, undecided]
        rfl
      · have behind := inductionHypothesis (List.pairwise_cons.mp ordered).2
        rw [if_neg isLive, List.find?_cons_of_neg isLive, waiting_cons,
          waiting_cons, behind, oldestLive]
        split <;> rfl

/-- Decisions append the element committed in this cycle to those that
wait. -/
theorem waiting_decided (ordered : Ordered queue) :
    waiting (decided input queue) =
      waiting queue ++
        (if input.commit then (oldestLive queue).map Item.key
          else none).toList := by
  have discarding :
      ∀ items : List (Item Entry),
        waiting (items.map Item.discardLive) = waiting items := by
    intro items
    simp [waiting, List.filter_map, Function.comp_def]
  unfold decided afterCommit
  by_cases commits : input.commit = true <;>
    by_cases discards : input.discard = true <;>
    simp [commits, discards, discarding, waiting_commitOldest ordered]

/-- A decided front stays as it is. -/
theorem decided_cons
    {item : Item Entry}
    (notLive : item.isLive = false) :
    decided input (item :: queue) = item :: decided input queue := by
  have kept : item.discardLive = item := by
    simp [Item.discardLive, notLive]
  unfold decided afterCommit
  by_cases commits : input.commit = true <;>
    by_cases discards : input.discard = true <;>
    simp [commits, discards, commitOldest, notLive, kept]

/-- A committed element is decided, and so is a discarded one. -/
theorem Item.not_live_of_departs
    {item : Item Entry}
    {ready : Bool}
    (departs : item.departs ready = true) :
    item.isLive = false := by
  unfold Item.departs Item.isHanded Item.isCommitted at departs
  unfold Item.isLive
  cases status : item.status <;> simp [status] at departs ⊢

/-- What stays of the queue after the decisions of a cycle. -/
def remaining
    (input : Input Entry)
    (queue : List (Item Entry)) :
    List (Item Entry) :=
  (decided input queue).drop (departures queue input.ready)

/-- A front that leaves, leaves the decided rest. -/
theorem remaining_of_departs
    {item : Item Entry}
    (departs : item.departs input.ready = true) :
    remaining input (item :: queue) = decided input queue := by
  unfold remaining departures
  rw [decided_cons (Item.not_live_of_departs departs)]
  simp [departs]

/-- A front that stays keeps the whole queue. -/
theorem remaining_of_stays
    {item : Item Entry}
    (stays : item.departs input.ready = false) :
    remaining input (item :: queue) = decided input (item :: queue) := by
  simp [remaining, departures, stays]

@[simp] theorem remaining_nil :
    remaining input ([] : List (Item Entry)) = [] := by
  simp [remaining, decided, afterCommit, commitOldest]

/--
What the reader takes, followed by what stays, keeps the order of the queue;
only a discarded front is left out.
-/
theorem handed_remaining_sublist :
    (((handed queue input.ready).map Item.key).toList ++
        (remaining input queue).map Item.key).Sublist
      (queue.map Item.key) := by
  cases queue with
  | nil =>
      simp [handed]
  | cons item rest =>
      cases departs : item.departs input.ready with
      | true =>
          rw [remaining_of_departs departs, keys_decided]
          by_cases isHanded : item.isHanded input.ready = true <;>
            simp [handed, isHanded, Option.filter]
      | false =>
          have notHanded : item.isHanded input.ready = false := by
            simp only [Item.departs, Bool.or_eq_false_iff] at departs
            exact departs.1
          rw [remaining_of_stays departs, keys_decided]
          simp [handed, notHanded]

/-- What the reader takes comes first among what waited. -/
theorem handed_waiting :
    ((handed queue input.ready).map Item.key).toList ++
        waiting (remaining input queue) =
      waiting (decided input queue) := by
  cases queue with
  | nil =>
      simp [handed, decided, afterCommit, commitOldest, waiting]
  | cons item rest =>
      cases departs : item.departs input.ready with
      | true =>
          rw [remaining_of_departs departs,
            decided_cons (Item.not_live_of_departs departs), waiting_cons]
          cases ready : input.ready with
          | true =>
              by_cases committed : item.isCommitted = true <;>
                simp [handed, Item.isHanded, committed, Option.filter]
          | false =>
              have notCommitted : item.isCommitted = false := by
                rw [ready] at departs
                unfold Item.departs Item.isHanded at departs
                unfold Item.isCommitted
                cases status : item.status <;> simp [status] at departs ⊢
              simp [handed, Item.isHanded, notCommitted]
      | false =>
          have notHanded : item.isHanded input.ready = false := by
            simp only [Item.departs, Bool.or_eq_false_iff] at departs
            exact departs.1
          rw [remaining_of_stays departs]
          simp [handed, notHanded]

@[simp] theorem length_decided :
    (decided input queue).length = queue.length := by
  have sameKeys :
      ((decided input queue).map Item.key).length =
        (queue.map Item.key).length := by
    rw [keys_decided]
  simpa using sameKeys

/-- A nonempty queue loses at most its front. -/
theorem departures_le (ready : Bool) :
    departures queue ready ≤ queue.length := by
  unfold departures
  cases queue with
  | nil =>
      simp
  | cons item rest =>
      split <;> simp

/-- The length after a cycle. -/
theorem length_step :
    (step cycle input queue).length =
      queue.length - departures queue input.ready +
        (arrivals cycle input).length := by
  simp [step]

/-- What stands at a position after a cycle. -/
theorem getElem?_step (position : Nat) :
    (step cycle input queue)[position]? =
      if position + departures queue input.ready < queue.length then
        (decided input queue)[position + departures queue input.ready]?
      else
        (arrivals cycle input)[position + departures queue input.ready -
          queue.length]? := by
  have bound : departures queue input.ready ≤ queue.length :=
    departures_le input.ready
  unfold step
  by_cases inside :
      position + departures queue input.ready < queue.length
  · rw [if_pos inside, List.getElem?_append_left, List.getElem?_drop,
      Nat.add_comm]
    simp only [List.length_drop, length_decided]
    omega
  · rw [if_neg inside, List.getElem?_append_right]
    · simp only [List.length_drop, length_decided]
      congr 1
      omega
    · simp only [List.length_drop, length_decided]
      omega

/-- What is inserted is live. -/
theorem waiting_arrivals : waiting (arrivals cycle input) = [] := by
  unfold arrivals
  cases input.insert <;> rfl

/-- What waits after a cycle, behind what was taken in it. -/
theorem waiting_step (ordered : Ordered queue) :
    ((handed queue input.ready).map Item.key).toList ++
        waiting (step cycle input queue) =
      waiting queue ++
        (if input.commit then (oldestLive queue).map Item.key
          else none).toList := by
  have appended :
      waiting (step cycle input queue) =
        waiting (remaining input queue) ++ waiting (arrivals cycle input) := by
    simp [waiting, step, remaining]
  rw [appended, waiting_arrivals, List.append_nil, handed_waiting,
    waiting_decided ordered]

/-- A commit keeps committed elements in front of live ones. -/
theorem ordered_commitOldest (ordered : Ordered queue) :
    Ordered (commitOldest queue) := by
  induction queue with
  | nil =>
      exact ordered
  | cons item rest inductionHypothesis =>
      have orderedRest := (List.pairwise_cons.mp ordered).2
      unfold commitOldest
      split
      · exact List.pairwise_cons.mpr ⟨fun _ _ _ => rfl, orderedRest⟩
      · rename_i notLive
        exact List.pairwise_cons.mpr
          ⟨fun _ _ _ => by simpa using notLive,
            inductionHypothesis orderedRest⟩

/-- A cycle keeps committed elements in front of live ones. -/
theorem ordered_step (ordered : Ordered queue) :
    Ordered (step cycle input queue) := by
  have discarding :
      ∀ {items : List (Item Entry)},
        Ordered (items.map Item.discardLive) := by
    intro items
    unfold Ordered
    rw [List.pairwise_map]
    exact List.pairwise_of_forall fun _ _ _ => isLive_discardLive _
  have orderedDecided : Ordered (decided input queue) := by
    unfold decided
    split
    · exact discarding
    · unfold afterCommit
      split
      · exact ordered_commitOldest ordered
      · exact ordered
  unfold Ordered step
  rw [List.pairwise_append]
  refine ⟨orderedDecided.drop, ?_, ?_⟩
  · unfold arrivals
    cases input.insert <;> simp
  · intro before _ behind arrived committed
    obtain ⟨_, _, rfl⟩ := List.mem_map.mp arrived
    cases committed

/-- An element after the decisions of a cycle was there before; what had been
decided about it stands. -/
theorem mem_decided
    {item : Item Entry}
    (member : item ∈ decided input queue) :
    ∃ old ∈ queue,
      old.key = item.key ∧ (old.isLive = false → item = old) := by
  have committing :
      ∀ {items : List (Item Entry)} {item : Item Entry},
        item ∈ commitOldest items →
        ∃ old ∈ items,
          old.key = item.key ∧ (old.isLive = false → item = old) := by
    intro items item member
    induction items with
    | nil =>
        cases member
    | cons head rest inductionHypothesis =>
        unfold commitOldest at member
        split at member
        · rename_i isLive
          rcases List.mem_cons.mp member with rfl | inRest
          · refine ⟨head, by simp, rfl, ?_⟩
            intro notLive
            rw [isLive] at notLive
            cases notLive
          · exact ⟨item, List.mem_cons_of_mem _ inRest, rfl, fun _ => rfl⟩
        · rcases List.mem_cons.mp member with rfl | inRest
          · exact ⟨item, by simp, rfl, fun _ => rfl⟩
          · obtain ⟨old, oldMember, same⟩ := inductionHypothesis inRest
            exact ⟨old, List.mem_cons_of_mem _ oldMember, same⟩
  have committed :
      ∀ {item : Item Entry},
        item ∈ afterCommit input queue →
        ∃ old ∈ queue,
          old.key = item.key ∧ (old.isLive = false → item = old) := by
    intro item member
    unfold afterCommit at member
    split at member
    · exact committing member
    · exact ⟨item, member, rfl, fun _ => rfl⟩
  unfold decided at member
  split at member
  · obtain ⟨middle, middleMember, rfl⟩ := List.mem_map.mp member
    obtain ⟨old, oldMember, sameKey, kept⟩ := committed middleMember
    refine ⟨old, oldMember, by simpa using sameKey, ?_⟩
    intro notLive
    rw [kept notLive]
    simp [Item.discardLive, notLive]
  · exact committed member

end Step

section Run

variable {stimulus : Nat → Input Entry}

theorem history_succ (stimulus : Nat → Input Entry) (cycle : Nat) :
    history stimulus (cycle + 1) =
      remaining (stimulus cycle) (history stimulus cycle) ++
        arrivals cycle (stimulus cycle) :=
  rfl

/-- Committed elements always stand in front of live ones. -/
theorem history_ordered (stimulus : Nat → Input Entry) (cycle : Nat) :
    Ordered (history stimulus cycle) := by
  induction cycle with
  | zero =>
      exact List.Pairwise.nil
  | succ cycle inductionHypothesis =>
      exact ordered_step inductionHypothesis

/--
Conservation: what was taken, followed by what still waits, is what was
committed.
-/
theorem handed_append_waiting (stimulus : Nat → Input Entry) (cycle : Nat) :
    handedLog stimulus cycle ++ waiting (history stimulus cycle) =
      commitLog stimulus cycle := by
  induction cycle with
  | zero =>
      rfl
  | succ cycle inductionHypothesis =>
      have moved :
          _ ++ waiting (step cycle (stimulus cycle) (history stimulus cycle)) =
            _ :=
        waiting_step (history_ordered stimulus cycle)
      unfold handedLog commitLog at inductionHypothesis ⊢
      rw [Clocked.collect_succ, Clocked.collect_succ,
        ← inductionHypothesis, List.append_assoc, List.append_assoc]
      exact congrArg _ moved

/-- What was taken, and then what still stands in the queue, are distinct
insertions of the past, in the order in which they were inserted. -/
theorem insertions_sorted (stimulus : Nat → Input Entry) (cycle : Nat) :
    (handedLog stimulus cycle ++
        (history stimulus cycle).map Item.key).Pairwise
          (fun before behind => before.1 < behind.1) ∧
      ∀ key ∈ handedLog stimulus cycle ++
          (history stimulus cycle).map Item.key,
        key.1 < cycle ∧ (stimulus key.1).insert = some key.2 := by
  induction cycle with
  | zero =>
      simp [handedLog, history]
  | succ cycle inductionHypothesis =>
      obtain ⟨sorted, genuine⟩ := inductionHypothesis
      have kept :
          (handedLog stimulus (cycle + 1) ++
              (remaining (stimulus cycle) (history stimulus cycle)).map
                Item.key).Sublist
            (handedLog stimulus cycle ++
              (history stimulus cycle).map Item.key) := by
        unfold handedLog
        rw [Clocked.collect_succ, List.append_assoc]
        exact handed_remaining_sublist.append_left _
      have shape :
          handedLog stimulus (cycle + 1) ++
              (history stimulus (cycle + 1)).map Item.key =
            (handedLog stimulus (cycle + 1) ++
              (remaining (stimulus cycle) (history stimulus cycle)).map
                Item.key) ++
              (arrivals cycle (stimulus cycle)).map Item.key := by
        rw [history_succ, List.map_append, List.append_assoc]
      have arrived :
          ∀ key ∈ (arrivals cycle (stimulus cycle)).map Item.key,
            key.1 = cycle ∧ (stimulus key.1).insert = some key.2 := by
        intro key member
        cases inserted : (stimulus cycle).insert with
        | none =>
            simp [arrivals, inserted] at member
        | some entry =>
            obtain rfl : key = (cycle, entry) := by
              simpa [arrivals, inserted, Item.key] using member
            exact ⟨rfl, inserted⟩
      rw [shape]
      constructor
      · rw [List.pairwise_append]
        refine ⟨sorted.sublist kept, ?_, ?_⟩
        · unfold arrivals
          cases (stimulus cycle).insert <;> simp
        · intro before member behind isArrived
          rw [(arrived behind isArrived).1]
          exact (genuine before (kept.subset member)).1
      · intro key member
        rcases List.mem_append.mp member with old | new
        · obtain ⟨past, inserted⟩ := genuine key (kept.subset old)
          exact ⟨Nat.lt_succ_of_lt past, inserted⟩
        · obtain ⟨rfl, inserted⟩ := arrived key new
          exact ⟨Nat.lt_succ_self _, inserted⟩

/-- Commits follow the order of insertion, and no insertion is committed
twice. -/
theorem commitLog_sorted (stimulus : Nat → Input Entry) (cycle : Nat) :
    (commitLog stimulus cycle).Pairwise
        (fun before behind => before.1 < behind.1) ∧
      ∀ key ∈ commitLog stimulus cycle,
        (stimulus key.1).insert = some key.2 := by
  obtain ⟨sorted, genuine⟩ := insertions_sorted stimulus cycle
  have part :
      (commitLog stimulus cycle).Sublist
        (handedLog stimulus cycle ++
          (history stimulus cycle).map Item.key) := by
    rw [← handed_append_waiting]
    exact (List.filter_sublist.map Item.key).append_left _
  exact ⟨sorted.sublist part, fun key member =>
    (genuine key (part.subset member)).2⟩

/-- A discarded element stays discarded while it is in the queue. -/
theorem stays_discarded
    {earlier later : Nat}
    {item other : Item Entry}
    (ordered : earlier ≤ later)
    (member : item ∈ history stimulus earlier)
    (discarded : item.status = .discarded)
    (stands : other ∈ history stimulus later)
    (sameInsertion : other.insertedAt = item.insertedAt) :
    other.status = .discarded := by
  have past :
      item.insertedAt < earlier :=
    ((insertions_sorted stimulus earlier).2 item.key
      (List.mem_append_right _ (List.mem_map_of_mem member))).1
  induction later, ordered using Nat.le_induction generalizing other with
  | base =>
      have sorted :
          ((history stimulus earlier).map Item.insertedAt).Nodup := by
        have all := (List.pairwise_append.mp
          (insertions_sorted stimulus earlier).1).2.1
        rw [List.pairwise_map] at all
        unfold List.Nodup
        rw [List.pairwise_map]
        exact all.imp fun before => Nat.ne_of_lt before
      rw [List.inj_on_of_nodup_map sorted stands member sameInsertion]
      exact discarded
  | succ later startFirst inductionHypothesis =>
      rw [history_succ] at stands
      rcases List.mem_append.mp stands with old | new
      · obtain ⟨before, beforeMember, sameKey, kept⟩ :=
          mem_decided (List.mem_of_mem_drop old)
        have same := congrArg Prod.fst sameKey
        have status := inductionHypothesis beforeMember
          (Eq.trans same sameInsertion)
        rw [kept (by simp [Item.isLive, status])]
        exact status
      · obtain ⟨_, _, rfl⟩ := List.mem_map.mp new
        simp only at sameInsertion
        omega

/-- What was discarded is never taken. -/
theorem discarded_not_handed
    {earlier : Nat}
    {item : Item Entry}
    (member : item ∈ history stimulus earlier)
    (discarded : item.status = .discarded)
    (later : Nat) :
    item.key ∉ handedLog stimulus later := by
  intro taken
  obtain ⟨cycle, inPast, takes⟩ := Clocked.mem_collect.mp taken
  obtain ⟨other, isHanded, sameKey⟩ := Option.map_eq_some_iff.mp takes
  by_cases ordered : earlier ≤ cycle
  · simp only [handed, Option.filter_eq_some_iff] at isHanded
    have status := stays_discarded ordered member discarded
      (List.mem_of_mem_head? isHanded.1) (congrArg Prod.fst sameKey)
    simp [Item.isHanded, Item.isCommitted, status] at isHanded
  · have takenBefore : item.key ∈ handedLog stimulus earlier :=
      Clocked.mem_collect.mpr ⟨cycle, by omega, takes⟩
    have apart := (List.pairwise_append.mp
      (insertions_sorted stimulus earlier).1).2.2 _ takenBefore _
        (List.mem_map_of_mem member)
    exact Nat.lt_irrefl _ apart

/-- What was live in a cycle with a discard and without a commit is never
taken. -/
theorem discard_not_handed
    {cycle : Nat}
    {item : Item Entry}
    (member : item ∈ history stimulus cycle)
    (isLive : item.isLive = true)
    (discards : (stimulus cycle).discard = true)
    (noCommit : (stimulus cycle).commit = false)
    (later : Nat) :
    item.key ∉ handedLog stimulus later := by
  have afterwards :
      item.discardLive ∈ history stimulus (cycle + 1) := by
    rw [history_succ]
    apply List.mem_append_left
    have all :
        ∀ items : List (Item Entry),
          decided (stimulus cycle) items = items.map Item.discardLive := by
      intro items
      simp [decided, afterCommit, discards, noCommit]
    cases shape : history stimulus cycle with
    | nil =>
        simp [shape] at member
    | cons head rest =>
        rw [shape] at member
        cases departs : head.departs (stimulus cycle).ready with
        | true =>
            rw [remaining_of_departs departs, all]
            rcases List.mem_cons.mp member with rfl | inRest
            · rw [Item.not_live_of_departs departs] at isLive
              cases isLive
            · exact List.mem_map_of_mem inRest
        | false =>
            rw [remaining_of_stays departs, all]
            exact List.mem_map_of_mem member
  have status : item.discardLive.status = .discarded := by
    simp [Item.discardLive, isLive]
  have never := discarded_not_handed afterwards status later
  rwa [key_discardLive] at never

end Run

end DrainQueue
