import Mathlib.Data.List.Basic
import Mathlib.Data.List.Pairwise
import Mathlib.Data.Nat.Init

namespace CompletionQueue

/-!
# Queues completed out of order

An element enters at the back, is completed in place at any position, possibly
several times, and leaves at the front once it is completed.  A front whose
payload says so takes everything behind it along.  Elements carry the cycle of
their entry and of their latest completion, so a run can be asked where a
departing element came from.
-/

variable {Own Payload : Type}

/-- An element of the queue, with the cycles that shaped it. -/
structure Item (Own Payload : Type) where
  own : Own
  enqueuedAt : Nat
  completion : Option (Nat × Payload)
  deriving Repr, DecidableEq

/-- The requests of one cycle; a completion names a position. -/
structure Input (Own Payload : Type) where
  enqueue : Option Own
  complete : Option (Nat × Payload)
  deriving Repr, DecidableEq

/-- The element that leaves in this cycle. -/
def front (queue : List (Item Own Payload)) : Option (Item Own Payload) :=
  queue.head?.filter fun item => item.completion.isSome

/-- The leaving element takes the others along. -/
def flushed
    (flushes : Payload → Bool)
    (queue : List (Item Own Payload)) :
    Bool :=
  (front queue).any fun item =>
    item.completion.any fun completion => flushes completion.2

/-- An element after the completion of a cycle. -/
def Item.completedAt
    (item : Item Own Payload)
    (cycle : Nat)
    (input : Input Own Payload)
    (position : Nat) :
    Item Own Payload :=
  match input.complete with
  | some (target, payload) =>
      if target = position then
        { item with completion := some (cycle, payload) }
      else
        item
  | none => item

/-- The queue after the completion of a cycle. -/
def completed
    (cycle : Nat)
    (input : Input Own Payload)
    (queue : List (Item Own Payload)) :
    List (Item Own Payload) :=
  queue.mapIdx fun position item => item.completedAt cycle input position

/-- How many elements leave at the front of a queue that is not flushed. -/
def departures (queue : List (Item Own Payload)) : Nat :=
  if (front queue).isSome then 1 else 0

/-- The elements that enter in this cycle. -/
def arrivals
    (cycle : Nat)
    (input : Input Own Payload) :
    List (Item Own Payload) :=
  input.enqueue.toList.map fun own =>
    { own := own, enqueuedAt := cycle, completion := none }

/-- One cycle of the queue. -/
def step
    (flushes : Payload → Bool)
    (cycle : Nat)
    (input : Input Own Payload)
    (queue : List (Item Own Payload)) :
    List (Item Own Payload) :=
  if flushed flushes queue then []
  else
    (completed cycle input queue).drop (departures queue) ++
      arrivals cycle input

/-- The queue at the beginning of every cycle of a run. -/
def history
    (flushes : Payload → Bool)
    (stimulus : Nat → Input Own Payload) :
    Nat → List (Item Own Payload)
  | 0 => []
  | cycle + 1 =>
      step flushes cycle (stimulus cycle) (history flushes stimulus cycle)

section Step

variable {flushes : Payload → Bool} {cycle : Nat}
  {input : Input Own Payload} {queue : List (Item Own Payload)}

@[simp] theorem length_completed :
    (completed cycle input queue).length = queue.length := by
  simp [completed]

@[simp] theorem enqueuedAt_completedAt
    (item : Item Own Payload) (position : Nat) :
    (item.completedAt cycle input position).enqueuedAt = item.enqueuedAt := by
  unfold Item.completedAt
  split
  · split <;> rfl
  · rfl

@[simp] theorem own_completedAt
    (item : Item Own Payload) (position : Nat) :
    (item.completedAt cycle input position).own = item.own := by
  unfold Item.completedAt
  split
  · split <;> rfl
  · rfl

/-- A completion is either absent, elsewhere, or recorded. -/
theorem completion_completedAt
    (item : Item Own Payload) (position : Nat) :
    (item.completedAt cycle input position).completion =
      match input.complete with
      | some (target, payload) =>
          if target = position then some (cycle, payload)
          else item.completion
      | none => item.completion := by
  unfold Item.completedAt
  split
  · split <;> rfl
  · rfl

/-- The leaving element is the completed head. -/
theorem front_eq_some {item : Item Own Payload} :
    front queue = some item ↔
      queue[0]? = some item ∧ item.completion.isSome = true := by
  unfold front
  rw [Option.filter_eq_some_iff, List.head?_eq_getElem?]

/-- A nonempty queue loses at most its head. -/
theorem departures_le : departures queue ≤ queue.length := by
  unfold departures
  split
  · rename_i leaves
    obtain ⟨item, isFront⟩ := Option.isSome_iff_exists.mp leaves
    have found := (front_eq_some.mp isFront).1
    exact (List.getElem?_eq_some_iff.mp found).1
  · exact Nat.zero_le _

/-- The length after a cycle without a flush. -/
theorem length_step (notFlushed : flushed flushes queue = false) :
    (step flushes cycle input queue).length =
      queue.length - departures queue + (arrivals cycle input).length := by
  simp [step, notFlushed]

/-- What stands at a position after a cycle without a flush. -/
theorem getElem?_step
    (notFlushed : flushed flushes queue = false)
    (position : Nat) :
    (step flushes cycle input queue)[position]? =
      if position + departures queue < queue.length then
        queue[position + departures queue]?.map fun item =>
          item.completedAt cycle input (position + departures queue)
      else
        (arrivals cycle input)[position + departures queue - queue.length]? := by
  have bound : departures queue ≤ queue.length := departures_le
  unfold step
  rw [notFlushed, if_neg Bool.false_ne_true]
  by_cases inside : position + departures queue < queue.length
  · rw [if_pos inside, List.getElem?_append_left, List.getElem?_drop,
      completed, List.getElem?_mapIdx, Nat.add_comm]
    simp only [List.length_drop, length_completed]
    omega
  · rw [if_neg inside, List.getElem?_append_right]
    · simp only [List.length_drop, length_completed]
      congr 1
      omega
    · simp only [List.length_drop, length_completed]
      omega

/-- An element after a cycle stood in the queue before, or has just arrived. -/
theorem mem_step
    {item : Item Own Payload}
    (member : item ∈ step flushes cycle input queue) :
    (∃ (position : Nat) (old : Item Own Payload),
      queue[position]? = some old ∧
        item = old.completedAt cycle input position) ∨
      (input.enqueue = some item.own ∧ item.enqueuedAt = cycle ∧
        item.completion = none) := by
  cases isFlushed : flushed flushes queue with
  | true =>
      simp [step, isFlushed] at member
  | false =>
      obtain ⟨position, found⟩ := List.getElem?_of_mem member
      rw [getElem?_step isFlushed] at found
      split at found
      · obtain ⟨old, atOld, same⟩ := Option.map_eq_some_iff.mp found
        exact .inl ⟨_, old, atOld, same.symm⟩
      · have arrived := List.mem_of_getElem? found
        simp only [arrivals, List.mem_map, Option.mem_toList]
          at arrived
        obtain ⟨own, enqueues, rfl⟩ := arrived
        exact .inr ⟨enqueues, rfl, rfl⟩

end Step

/-- The entry cycles of the elements of a queue, front first. -/
def tickets (queue : List (Item Own Payload)) : List Nat :=
  queue.map Item.enqueuedAt

/-- The entry cycles after a cycle without a flush. -/
theorem tickets_step
    {flushes : Payload → Bool} {cycle : Nat}
    {input : Input Own Payload} {queue : List (Item Own Payload)}
    (notFlushed : flushed flushes queue = false) :
    tickets (step flushes cycle input queue) =
      (tickets queue).drop (departures queue) ++
        input.enqueue.toList.map fun _ => cycle := by
  have kept :
      (completed cycle input queue).map Item.enqueuedAt =
        queue.map Item.enqueuedAt := by
    apply List.ext_getElem?
    intro position
    simp [completed, List.getElem?_mapIdx, Function.comp_def]
  simp only [tickets, step, notFlushed, Bool.false_eq_true, if_false,
    List.map_append, List.map_drop, kept, arrivals, List.map_map]
  rfl

section Run

variable {flushes : Payload → Bool} {stimulus : Nat → Input Own Payload}

/-- Elements stand in the order of their entry, all of it in the past. -/
theorem tickets_sorted (flushes : Payload → Bool)
    (stimulus : Nat → Input Own Payload) (cycle : Nat) :
    (tickets (history flushes stimulus cycle)).Pairwise (· < ·) ∧
      ∀ ticket ∈ tickets (history flushes stimulus cycle),
        ticket < cycle := by
  induction cycle with
  | zero =>
      simp [history, tickets]
  | succ cycle inductionHypothesis =>
      obtain ⟨sorted, past⟩ := inductionHypothesis
      cases isFlushed :
          flushed flushes (history flushes stimulus cycle) with
      | true =>
          simp [history, step, isFlushed, tickets]
      | false =>
          rw [history, tickets_step isFlushed]
          have pastRest :
              ∀ ticket ∈ (tickets (history flushes stimulus cycle)).drop
                (departures (history flushes stimulus cycle)),
                ticket < cycle :=
            fun ticket member => past ticket (List.mem_of_mem_drop member)
          constructor
          · rw [List.pairwise_append]
            refine ⟨sorted.drop, ?_, ?_⟩
            · cases (stimulus cycle).enqueue <;> simp
            · intro ticket member arrived isArrived
              obtain ⟨_, _, rfl⟩ := List.mem_map.mp isArrived
              exact pastRest ticket member
          · intro ticket member
            rcases List.mem_append.mp member with stays | arrived
            · exact Nat.lt_succ_of_lt (pastRest ticket stays)
            · obtain ⟨_, _, rfl⟩ := List.mem_map.mp arrived
              exact Nat.lt_succ_self _

/-- Elements that entered together stand at the same position. -/
theorem position_unique
    {cycle first second : Nat}
    {firstItem secondItem : Item Own Payload}
    (atFirst : (history flushes stimulus cycle)[first]? = some firstItem)
    (atSecond : (history flushes stimulus cycle)[second]? = some secondItem)
    (same : firstItem.enqueuedAt = secondItem.enqueuedAt) :
    first = second := by
  have distinct :
      (tickets (history flushes stimulus cycle)).Nodup :=
    (tickets_sorted flushes stimulus cycle).1.imp fun ordered =>
      Nat.ne_of_lt ordered
  have inside := (List.getElem?_eq_some_iff.mp atFirst).1
  apply (List.getElem?_inj (by simpa [tickets] using inside) distinct).mp
  simp [tickets, atFirst, atSecond, same]

/-- A completion of this cycle reaches the element that entered in cycle
`ticket`. -/
def Completes
    (flushes : Payload → Bool)
    (stimulus : Nat → Input Own Payload)
    (cycle ticket : Nat)
    (payload : Payload) :
    Prop :=
  ∃ position item,
    (stimulus cycle).complete = some (position, payload) ∧
      (history flushes stimulus cycle)[position]? = some item ∧
      item.enqueuedAt = ticket

/--
Where an element comes from: its entry, and the latest completion that reached
it, if any did, after the entry and before this cycle.
-/
structure Provenance
    (flushes : Payload → Bool)
    (stimulus : Nat → Input Own Payload)
    (now : Nat)
    (item : Item Own Payload) :
    Prop where
  entered : item.enqueuedAt < now
  enqueued : (stimulus item.enqueuedAt).enqueue = some item.own
  completedBy :
    ∀ cycle payload,
      item.completion = some (cycle, payload) →
      item.enqueuedAt < cycle ∧ cycle < now ∧
        Completes flushes stimulus cycle item.enqueuedAt payload
  latest :
    ∀ cycle payload,
      item.enqueuedAt < cycle →
      cycle < now →
      Completes flushes stimulus cycle item.enqueuedAt payload →
      ∃ last lastPayload,
        item.completion = some (last, lastPayload) ∧ cycle ≤ last

/-- Every element of every queue of a run has a provenance. -/
theorem provenance_of_mem
    {now : Nat}
    {item : Item Own Payload}
    (member : item ∈ history flushes stimulus now) :
    Provenance flushes stimulus now item := by
  induction now generalizing item with
  | zero =>
      simp [history] at member
  | succ now inductionHypothesis =>
      rcases mem_step member with
        ⟨position, old, atOld, rfl⟩ | ⟨enqueues, enteredNow, incomplete⟩
      · have before := inductionHypothesis (List.mem_of_getElem? atOld)
        have reaches :
            ∀ payload,
              Completes flushes stimulus now old.enqueuedAt payload ↔
                (stimulus now).complete = some (position, payload) := by
          intro payload
          constructor
          · rintro ⟨target, item, completes, atTarget, sameEntry⟩
            rwa [position_unique atTarget atOld sameEntry] at completes
          · intro completes
            exact ⟨position, old, completes, atOld, rfl⟩
        refine ⟨?_, ?_, ?_, ?_⟩
        · rw [enqueuedAt_completedAt]
          exact Nat.lt_succ_of_lt before.entered
        · rw [enqueuedAt_completedAt, own_completedAt]
          exact before.enqueued
        · intro cycle payload recorded
          rw [enqueuedAt_completedAt]
          rw [completion_completedAt] at recorded
          have kept :
              old.completion = some (cycle, payload) →
                old.enqueuedAt < cycle ∧ cycle < now + 1 ∧
                  Completes flushes stimulus cycle old.enqueuedAt payload := by
            intro recordedBefore
            obtain ⟨afterEntry, past, completes⟩ :=
              before.completedBy cycle payload recordedBefore
            exact ⟨afterEntry, Nat.lt_succ_of_lt past, completes⟩
          split at recorded
          · rename_i target newPayload completes
            split at recorded
            · rename_i isTarget
              obtain ⟨rfl, rfl⟩ := Prod.mk.inj (Option.some.inj recorded)
              refine ⟨before.entered, Nat.lt_succ_self _, ?_⟩
              rw [reaches, completes, isTarget]
            · exact kept recorded
          · exact kept recorded
        · intro cycle payload afterEntry past completes
          rw [enqueuedAt_completedAt] at afterEntry completes
          rw [completion_completedAt]
          by_cases isNow : cycle = now
          · subst isNow
            rw [reaches] at completes
            exact ⟨cycle, payload, by simp [completes], Nat.le_refl _⟩
          · obtain ⟨last, lastPayload, recorded, ordered⟩ :=
              before.latest cycle payload afterEntry (by omega) completes
            split
            · split
              · exact ⟨now, _, rfl, by omega⟩
              · exact ⟨last, lastPayload, recorded, ordered⟩
            · exact ⟨last, lastPayload, recorded, ordered⟩
      · refine ⟨by omega, by rw [enteredNow]; exact enqueues, ?_, ?_⟩
        · intro cycle payload recorded
          rw [incomplete] at recorded
          cases recorded
        · intro cycle payload afterEntry past
          omega

/-- Once every element entered after some cycle, it stays that way. -/
theorem entered_after
    {bound start : Nat}
    (startsAfter : bound < start)
    (afterBound :
      ∀ ticket ∈ tickets (history flushes stimulus start), bound < ticket)
    {later : Nat}
    (ordered : start ≤ later) :
    ∀ ticket ∈ tickets (history flushes stimulus later), bound < ticket := by
  induction later, ordered using Nat.le_induction with
  | base =>
      exact afterBound
  | succ later startFirst inductionHypothesis =>
      cases isFlushed :
          flushed flushes (history flushes stimulus later) with
      | true =>
          simp [history, step, isFlushed, tickets]
      | false =>
          rw [history, tickets_step isFlushed]
          intro ticket member
          rcases List.mem_append.mp member with stays | arrived
          · exact inductionHypothesis ticket (List.mem_of_mem_drop stays)
          · obtain ⟨_, _, rfl⟩ := List.mem_map.mp arrived
            exact Nat.lt_of_lt_of_le startsAfter startFirst

/-- Elements leave in the order of their entry, hence at most once. -/
theorem front_ordered
    {earlier later : Nat}
    {first second : Item Own Payload}
    (ordered : earlier < later)
    (firstLeaves : front (history flushes stimulus earlier) = some first)
    (secondLeaves : front (history flushes stimulus later) = some second) :
    first.enqueuedAt < second.enqueuedAt := by
  have atHead := (front_eq_some.mp firstLeaves).1
  have secondStands :
      second.enqueuedAt ∈ tickets (history flushes stimulus later) :=
    List.mem_map_of_mem
      (List.mem_of_getElem? (front_eq_some.mp secondLeaves).1)
  have firstPast :
      first.enqueuedAt < earlier :=
    (provenance_of_mem (List.mem_of_getElem? atHead)).entered
  have restAfter :
      ∀ ticket ∈ tickets (history flushes stimulus (earlier + 1)),
        first.enqueuedAt < ticket := by
    cases isFlushed :
        flushed flushes (history flushes stimulus earlier) with
    | true =>
        simp [history, step, isFlushed, tickets]
    | false =>
        rw [history, tickets_step isFlushed]
        intro ticket member
        rcases List.mem_append.mp member with stays | arrived
        · have sorted := (tickets_sorted flushes stimulus earlier).1
          cases shape : history flushes stimulus earlier with
          | nil =>
              simp [shape] at atHead
          | cons head rest =>
              rw [shape] at atHead stays sorted firstLeaves
              obtain rfl : head = first := by simpa using atHead
              simp only [tickets, List.map_cons, List.pairwise_cons]
                at sorted stays
              rw [departures, firstLeaves] at stays
              exact sorted.1 ticket (by simpa using stays)
        · obtain ⟨_, _, rfl⟩ := List.mem_map.mp arrived
          exact firstPast
  exact entered_after (Nat.lt_succ_of_lt firstPast) restAfter ordered
    second.enqueuedAt secondStands

/-- Nothing that entered up to the cycle of a flush leaves after it. -/
theorem front_after_flush
    {earlier later : Nat}
    {second : Item Own Payload}
    (ordered : earlier < later)
    (flush : flushed flushes (history flushes stimulus earlier) = true)
    (secondLeaves : front (history flushes stimulus later) = some second) :
    earlier < second.enqueuedAt := by
  have restAfter :
      ∀ ticket ∈ tickets (history flushes stimulus (earlier + 1)),
        earlier < ticket := by
    simp [history, step, flush, tickets]
  exact entered_after (Nat.lt_succ_self earlier) restAfter ordered
    second.enqueuedAt
    (List.mem_map_of_mem
      (List.mem_of_getElem? (front_eq_some.mp secondLeaves).1))

end Run

end CompletionQueue
