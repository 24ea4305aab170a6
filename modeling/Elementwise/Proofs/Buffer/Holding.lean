import Elementwise.Proofs.Buffer.Quota
import Elementwise.Proofs.Buffer.Recency

/-!
# Who holds the buffers

Actions on the store make buffers for a short time: one for each pass of a
reduction, and one for each adjoint that has to be summed.  However an action
ends, each of them is given up again: no buffer has more holders than before,
apart from a buffer that is the answer of the action, which the caller is to
give up.

What is said here concerns no accelerator, so that it holds of any.
-/

namespace Elementwise.Store

variable
    {α β : Type}
    [Arithmetic α]
    {store : Store α}
    {buffer other : BufferId}

/-! ## Leases that end with an action -/

namespace Enduring

variable
    {holds : Store α → Prop}
    {tier : Tier}
    {body : Action α β}
    {done : β → Store α → Prop}
    (enduring : Enduring holds)

include enduring

/-- A lease for the length of an action, which may end in a condition of its own. -/
theorem ends_withLease
    (kept : ∀ answer, Enduring (done answer))
    (run : ∀ store, holds store → Ends body store done fun _ after => holds after)
    (held : holds store) :
    Ends (Store.withLease buffer tier body) store done fun _ after => holds after := by
  unfold Store.withLease
  rw [ends_bind_iff]
  refine (enduring.lease tier store held).mono ?_ fun _ _ after => after
  intro _ leased held
  rw [ends_followedBy_iff]
  exact (run leased held).mono (fun answer _ after => (kept answer).unpin _ buffer after)
    fun _ _ after => enduring.unpin _ buffer after

theorem ends_withLeasesInOrder
    (buffers : List BufferId)
    (kept : ∀ answer, Enduring (done answer))
    (run : ∀ store, holds store → Ends body store done fun _ after => holds after)
    (held : holds store) :
    Ends (Store.withLeasesInOrder buffers body) store done fun _ after => holds after := by
  induction buffers generalizing store with
  | nil => exact run store held
  | cons buffer buffers step =>
    exact enduring.ends_withLease kept (fun _ held => step held) held

theorem ends_withLeases
    (buffers : List BufferId)
    (kept : ∀ answer, Enduring (done answer))
    (run : ∀ store, holds store → Ends body store done fun _ after => holds after)
    (held : holds store) :
    Ends (Store.withLeases buffers body) store done fun _ after => holds after :=
  enduring.ends_withLeasesInOrder _ kept run held

theorem withLease (run : Preserves holds body) :
    Preserves holds (Store.withLease buffer tier body) :=
  fun _ held => enduring.ends_withLease (fun _ => enduring) run held

theorem withLeases
    (buffers : List BufferId)
    (run : Preserves holds body) :
    Preserves holds (Store.withLeases buffers body) :=
  fun _ held => enduring.ends_withLeases buffers (fun _ => enduring) run held

end Enduring

/-! ## Holders -/

/-- How many holders a buffer may have. -/
abbrev Holding := BufferId → Nat

/-- One more holder of a buffer. -/
def Holding.more (holding : Holding) (buffer : BufferId) : Holding :=
  fun other => holding other + if buffer = other then 1 else 0

/-- No live buffer has more holders than it may have. -/
def Held (holding : Holding) (store : Store α) : Prop :=
  ∀ buffer claim, store.claim? buffer = some claim → claim.holders ≤ holding buffer

variable {holding : Holding}

omit [Arithmetic α] in
theorem Held.mono
    {larger : Holding}
    (held : store.Held holding)
    (more : ∀ other, holding other ≤ larger other) :
    store.Held larger :=
  fun other claim claimed => Nat.le_trans (held other claim claimed) (more other)

theorem enduring_held (holding : Holding) : Enduring (Held holding : Store α → Prop) where
  accelerator _ _ held := held
  replace store buffer contents held other claim claimed := by
    rw [claim?_replace] at claimed
    exact held other claim claimed
  touch store buffer held other claim claimed := by
    rw [(alike_touch store buffer).claim?] at claimed
    exact held other claim claimed
  pin store buffer held other claim claimed := by
    rw [claim?_pin] at claimed
    split at claimed
    · obtain ⟨old, before, rfl⟩ := Option.map_eq_some_iff.1 claimed
      exact held other old before
    · exact held other claim claimed
  unpin store buffer held other claim claimed := by
    obtain ⟨old, before, rfl⟩ := exists_claim_of_reclaim revises_unpin claimed
    split
    · exact held other old before
    · exact held other old before

omit [Arithmetic α] in
/-- A new buffer has one holder. -/
theorem Held.register
    (held : store.Held holding)
    (length : Nat)
    (contents : Contents α) :
    (store.register length contents).2.Held (holding.more (store.register length contents).1) := by
  intro other claim claimed
  rw [claim?_register] at claimed
  unfold Holding.more
  split at claimed
  next new =>
    cases claimed
    rw [if_pos new]
    exact Nat.le_add_left 1 _
  next old =>
    rw [if_neg old]
    exact held other claim claimed

/-- A buffer that is dropped has one holder fewer. -/
theorem Held.drop (held : store.Held (holding.more buffer)) : (store.drop buffer).Held holding := by
  intro other claim claimed
  obtain ⟨old, before, rfl⟩ := exists_claim_of_reclaim revises_drop claimed
  have enough := held other old before
  unfold Holding.more at enough
  split
  next same =>
    rw [if_pos same] at enough
    exact Nat.sub_le_of_le_add enough
  next different => rwa [if_neg different] at enough

omit [Arithmetic α] in
theorem Held.hold (held : store.Held holding) : (store.hold buffer).Held (holding.more buffer) := by
  intro other claim claimed
  have revised : (store.hold buffer).claim? other = _ := claim?_revised revises_hold other
  rw [claimed] at revised
  unfold Holding.more
  split at revised
  next same =>
    obtain ⟨old, before, rfl⟩ := Option.map_eq_some_iff.1 revised.symm
    rw [if_pos same]
    exact Nat.succ_le_succ (held other old before)
  next different =>
    rw [if_neg different]
    exact held other claim revised.symm

/-! ## Buffers that are handed over -/

/-- An action that answers a buffer, of which the caller is one more holder. -/
def HandsOver (action : Action α BufferId) : Prop :=
  ∀ holding store, store.Held holding →
    Ends action store (fun buffer after => after.Held (holding.more buffer))
      fun _ after => after.Held holding

omit [Arithmetic α] in
theorem handsOver_allocate (length : Nat) : HandsOver (allocate length : Action α BufferId) := by
  intro holding store held
  rw [allocate, ends_modifyGet_iff]
  exact held.register length .empty

/-- A new buffer is handed over after something was done with it, unless that fails. -/
theorem HandsOver.bind
    {makes : Action α BufferId}
    {fill : BufferId → Action α β}
    (handsOver : HandsOver makes)
    (run : ∀ holding buffer, Preserves (Held holding) (fill buffer)) :
    HandsOver do
      let buffer ← makes
      let _ ← (fill buffer).unlessDone (·.drop buffer)
      return buffer := by
  intro holding store held
  rw [ends_bind_iff]
  refine (handsOver holding store held).mono ?_ fun _ _ after => after
  intro buffer made held
  rw [ends_bind_iff, ends_unlessDone_iff]
  exact (run _ buffer made held).mono (fun _ _ after => after) fun _ _ after => after.drop

theorem held_withBuffer
    (length : Nat)
    {body : BufferId → Action α β}
    (run : ∀ holding buffer, Preserves (Held holding) (body buffer)) :
    Preserves (Held holding) (withBuffer length body) := by
  intro store held
  unfold withBuffer
  rw [ends_bind_iff]
  refine (handsOver_allocate length holding store held).mono ?_ fun _ _ after => after
  intro buffer made held
  rw [ends_followedBy_iff]
  exact (run _ buffer made held).mono (fun _ _ after => after.drop) fun _ _ after => after.drop

theorem held_withBuffers
    (lengths : List Nat)
    {body : List BufferId → Action α β}
    (run : ∀ holding buffers, Preserves (Held holding) (body buffers)) :
    Preserves (Held holding) (withBuffers lengths body) := by
  induction lengths generalizing body holding with
  | nil => exact run holding []
  | cons length lengths step =>
    exact held_withBuffer length fun _ buffer => step fun holding buffers =>
      run holding (buffer :: buffers)

end Elementwise.Store
