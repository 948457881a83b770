import Tartaruga.StoreBufferDrain

namespace Tartaruga

/-!
# Loads served by the store buffer

The bypass search reads the valid bit and the address of a slot, and not
whether a flush has discarded the store in it.
-/

namespace StoreBuffer

variable {buffer : StoreBuffer} {addr : Bus32} {slot : StoreBufferIdx}

/-- The slot holds a store to the address. -/
def matchesAt
    (buffer : StoreBuffer)
    (addr : Bus32)
    (slot : StoreBufferIdx) :
    Bool :=
  (buffer.storeBufferQ slot).valid && (buffer.storeBufferQ slot).addr == addr

/-- The bypass search is a backward search of the ring. -/
theorem searchLoop_eq (rounds : Nat) :
    buffer.searchLoop addr rounds slot =
      Ring.searchBack buffer.tailPtrQ (buffer.matchesAt addr) rounds slot := by
  induction rounds generalizing slot with
  | zero =>
      rfl
  | succ rounds inductionHypothesis =>
      unfold searchLoop Ring.searchBack
      rw [inductionHypothesis]
      rfl

/-- A slot lies behind another one: it was taken later. -/
def youngerThan
    (buffer : StoreBuffer)
    (older younger : StoreBufferIdx) :
    Prop :=
  Ring.dist buffer.tailPtrQ older < Ring.dist buffer.tailPtrQ younger

/-- The bypass serves a load from the youngest matching slot in front of the
tail. -/
theorem bypassSlot_eq_some :
    buffer.bypassSlot addr = some slot ↔
      slot ≠ buffer.tailPtrQ ∧ buffer.matchesAt addr slot = true ∧
        ∀ other,
          buffer.youngerThan slot other →
          buffer.matchesAt addr other = false := by
  unfold bypassSlot
  rw [searchLoop_eq]
  exact Ring.searchBack_eq_some

/-- The load, if the bypass answers it, gets the data of a slot that is valid
and was not discarded. -/
def BypassSound (buffer : StoreBuffer) (addr : Bus32) : Prop :=
  buffer.bypass addr = true →
  ∃ slot,
    buffer.bypassSlot addr = some slot ∧
      buffer.dataRd addr = (buffer.storeBufferQ slot).data ∧
      (buffer.storeBufferQ slot).valid = true ∧
      (buffer.storeBufferQ slot).discarded = false

/-- Every discarded store to the address that the search passes is hidden by a
younger one that was not discarded. -/
def DiscardedHidden (buffer : StoreBuffer) (addr : Bus32) : Prop :=
  ∀ slot,
    slot ≠ buffer.tailPtrQ →
    buffer.matchesAt addr slot = true →
    (buffer.storeBufferQ slot).discarded = true →
    ∃ younger,
      buffer.youngerThan slot younger ∧
        buffer.matchesAt addr younger = true ∧
        (buffer.storeBufferQ younger).discarded = false

/-- The bypass serves exactly the slot that the search returns. -/
theorem bypassSound_iff_slot :
    buffer.BypassSound addr ↔
      ∀ slot,
        buffer.bypassSlot addr = some slot →
        (buffer.storeBufferQ slot).discarded = false := by
  unfold BypassSound bypass dataRd
  cases found : buffer.bypassSlot addr with
  | none =>
      simp
  | some slot =>
      have isMatch := (bypassSlot_eq_some.mp found).2.1
      simp only [matchesAt, Bool.and_eq_true] at isMatch
      simp [isMatch.1]

/--
In every state of every run, a load of an address is safe from squashed stores
if and only if every discarded store to that address which is still in the
ring, in front of the tail, is hidden by a younger one that was not discarded.
-/
theorem bypassSound_iff
    (stimulus : Nat → StoreBufferInput)
    (cycle : Nat)
    (addr : Bus32) :
    (Clocked.run clock reset stimulus cycle).BypassSound addr ↔
      (Clocked.run clock reset stimulus cycle).DiscardedHidden addr := by
  rw [bypassSound_iff_slot]
  constructor
  · intro sound slot notTail isMatch discarded
    obtain ⟨found, isFound, behind⟩ :=
      Ring.exists_searchBack notTail isMatch
    rw [← searchLoop_eq] at isFound
    have kept := sound found isFound
    have apart : slot ≠ found := by
      rintro rfl
      rw [discarded] at kept
      cases kept
    refine ⟨found, Nat.lt_of_le_of_ne behind ?_,
      (bypassSlot_eq_some.mp isFound).2.1, kept⟩
    exact fun same => apart (Ring.dist_injective same)
  · intro hidden slot found
    obtain ⟨notTail, isMatch, youngest⟩ := bypassSlot_eq_some.mp found
    by_contra discarded
    obtain ⟨younger, behind, isYounger, _⟩ :=
      hidden slot notTail isMatch (by simpa using discarded)
    rw [youngest younger behind] at isYounger
    cases isYounger

/-- A committed store drains slowly while the younger one behind it is
discarded by a flush. -/
def slowDrain : Nat → StoreBufferInput
  | 0 => { idleInput with reqValid := true, addr := 4, data := 1 }
  | 1 => { idleInput with reqValid := true, addr := 8, data := 2 }
  | 2 => { idleInput with commit := true }
  | 3 => { idleInput with discard := fun slot => slot == 1 }
  | _ => idleInput

/--
Under the protocol of the pipeline, a load of address eight after the flush is
answered with the data of the discarded store.
-/
theorem bypass_not_sound :
    (∀ cycle,
        (Clocked.run clock reset slowDrain cycle).Follows
          (slowDrain cycle)) ∧
      (Clocked.run clock reset slowDrain 4).bypass 8 = true ∧
      (Clocked.run clock reset slowDrain 4).dataRd 8 = 2 ∧
      ¬ (Clocked.run clock reset slowDrain 4).BypassSound 8 := by
  refine ⟨?_, by decide +kernel, by decide +kernel, ?_⟩
  · intro cycle
    match cycle with
    | 0 | 1 =>
        constructor <;> intro pulse <;> cases pulse
    | 2 =>
        refine ⟨fun _ => by decide +kernel, fun _ => by decide +kernel,
          ?_, ?_⟩ <;> intro pulse <;> cases pulse
    | 3 =>
        refine ⟨?_, ?_, fun _ => by decide +kernel,
          fun _ => ⟨by decide +kernel, rfl⟩⟩ <;> intro pulse <;> cases pulse
    | cycle + 4 =>
        constructor <;> intro pulse <;> cases pulse
  · rw [bypassSound_iff_slot]
    intro sound
    have kept := sound 1 (by decide +kernel)
    revert kept
    decide +kernel

end StoreBuffer

end Tartaruga
