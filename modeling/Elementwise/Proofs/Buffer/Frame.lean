import Mathlib.Data.Set.Basic
import Elementwise.Buffer.Store
import Elementwise.Proofs.Device.Pool

/-!
# What a change of the buffer store leaves alone

Three things matter about a store: the claim on each buffer, that is its length
and how many hold and lease it; the contents of each buffer; and the memory of
the accelerator.  What a buffer reads as follows from them.

A store is valid if what it says of its buffers is true: contents have the
length of their buffer, and every buffer on the accelerator has a live block
of its own.

A `Frame` between two valid stores says what a step from one to the other
leaves alone, but for two sets of buffers: the claims and readings of some are
made anew, and others are written.  A leased buffer keeps its contents where
they are.  Frames compose, so that everything about an operation follows from
the frames of its parts.
-/

namespace Elementwise

variable {α : Type}

/-- The length of a buffer, and how many hold and lease it. -/
structure Claim where
  length : Nat
  holders : Nat
  leases : Nat
deriving DecidableEq, Repr

namespace Claim

/-- Somebody holds or leases the buffer. -/
def Wanted (claim : Claim) : Prop :=
  0 < claim.holders ∨ 0 < claim.leases

instance (claim : Claim) : Decidable claim.Wanted :=
  inferInstanceAs (Decidable (_ ∨ _))

/-- One more holder. -/
def hold (claim : Claim) : Claim :=
  { claim with holders := claim.holders + 1 }

/-- One holder fewer. -/
def drop (claim : Claim) : Claim :=
  { claim with holders := claim.holders - 1 }

/-- One more lease. -/
def pin (claim : Claim) : Claim :=
  { claim with leases := claim.leases + 1 }

/-- One lease fewer. -/
def unpin (claim : Claim) : Claim :=
  { claim with leases := claim.leases - 1 }

@[simp]
theorem unpin_pin (claim : Claim) : claim.pin.unpin = claim := rfl

/-- The claim of its creator on a new buffer. -/
def fresh (length : Nat) : Claim := ⟨length, 1, 0⟩

end Claim

/-- The claim on a buffer. -/
def Buffer.claim (buffer : Buffer α) : Claim :=
  ⟨buffer.length, buffer.holders, buffer.leases⟩

/-- What contents read as in a buffer of a given length. -/
def Contents.values? [Arithmetic α] (pool : Pool α) (length : Nat) :
    Contents α → Option (Array α)
  | empty => some (zeros α length)
  | host values => some values
  | device block => pool.blocks.get? block.handle

/-- Contents that fit a buffer of a given length. -/
def Contents.Fits (pool : Pool α) (length : Nat) : Contents α → Prop
  | empty => True
  | host values => values.size = length
  | device block =>
      block.length = length ∧ block.device = pool.id ∧
        ∃ values, pool.blocks.get? block.handle = some values ∧ values.size = length

namespace Store

/-- The claim on a buffer. -/
def claim? (store : Store α) (buffer : BufferId) : Option Claim :=
  (store.buffers.get? buffer).map Buffer.claim

/-- The contents of a buffer. -/
def contents? (store : Store α) (buffer : BufferId) : Option (Contents α) :=
  (store.buffers.get? buffer).map (·.contents)

section

variable [Arithmetic α]

theorem reading?_eq (store : Store α) (buffer : BufferId) :
    store.reading? buffer =
      (store.claim? buffer).bind fun claim =>
        (store.contents? buffer).bind (·.values? store.accelerator.pool claim.length) := by
  unfold reading? claim? contents?
  cases store.buffers.get? buffer with
  | none => rfl
  | some found =>
    obtain ⟨length, contents, stamp, holders, leases⟩ := found
    cases contents <;> rfl

end

/-- What a store says of its buffers is true. -/
structure Valid (store : Store α) : Prop where
  fresh : ∀ buffer : BufferId, store.nextIndex ≤ buffer.index → store.claim? buffer = none
  wanted : ∀ buffer claim, store.claim? buffer = some claim → claim.Wanted
  fits : ∀ buffer claim contents, store.claim? buffer = some claim →
    store.contents? buffer = some contents → contents.Fits store.accelerator.pool claim.length
  /-- No two buffers share a block. -/
  apart : ∀ buffer other block shared, store.contents? buffer = some (.device block) →
    store.contents? other = some (.device shared) → block.handle = shared.handle →
    buffer = other
  named : store.accelerator.pool.Named

/-- A store without buffers is valid. -/
theorem valid_create {accelerator : Accelerator α} (named : accelerator.pool.Named) :
    (create accelerator).Valid where
  fresh _ _ := rfl
  wanted := nofun
  fits := nofun
  apart := nofun
  named := named

/--
What a step leaves alone.  Nothing is said of the buffers that are made or
ended, and nothing of the readings of those that are written.
-/
structure Frame [Arithmetic α] (made written : Set BufferId) (before after : Store α) : Prop where
  valid : after.Valid
  nextIndex : before.nextIndex ≤ after.nextIndex
  claims : ∀ buffer, buffer ∉ made → after.claim? buffer = before.claim? buffer
  /-- A leased buffer stays where it is. -/
  pinned : ∀ buffer claim, buffer ∉ made → before.claim? buffer = some claim →
    0 < claim.leases → after.contents? buffer = before.contents? buffer
  readings : ∀ buffer, buffer ∉ made → buffer ∉ written →
    after.reading? buffer = before.reading? buffer

section

variable [Arithmetic α] {made written : Set BufferId} {before middle after : Store α}

theorem Frame.refl (valid : before.Valid) : Frame ∅ ∅ before before :=
  ⟨valid, Nat.le_refl _, fun _ _ => rfl, fun _ _ _ _ _ => rfl, fun _ _ _ => rfl⟩

theorem Frame.mono
    {moreMade moreWritten : Set BufferId}
    (frame : Frame made written before after)
    (wider : made ⊆ moreMade)
    (longer : written ⊆ moreWritten) :
    Frame moreMade moreWritten before after where
  valid := frame.valid
  nextIndex := frame.nextIndex
  claims buffer outside := frame.claims buffer fun inside => outside (wider inside)
  pinned buffer claim outside := frame.pinned buffer claim fun inside => outside (wider inside)
  readings buffer outside kept :=
    frame.readings buffer (fun inside => outside (wider inside))
      fun inside => kept (longer inside)

theorem Frame.trans
    {laterMade laterWritten : Set BufferId}
    (first : Frame made written before middle)
    (second : Frame laterMade laterWritten middle after) :
    Frame (made ∪ laterMade) (written ∪ laterWritten) before after where
  valid := second.valid
  nextIndex := Nat.le_trans first.nextIndex second.nextIndex
  claims buffer outside := by
    rw [Set.mem_union, not_or] at outside
    rw [second.claims buffer outside.2, first.claims buffer outside.1]
  pinned buffer claim outside held leased := by
    rw [Set.mem_union, not_or] at outside
    have still : middle.claim? buffer = some claim := by
      rw [first.claims buffer outside.1, held]
    rw [second.pinned buffer claim outside.2 still leased,
      first.pinned buffer claim outside.1 held leased]
  readings buffer outside kept := by
    rw [Set.mem_union, not_or] at outside kept
    rw [second.readings buffer outside.2 kept.2, first.readings buffer outside.1 kept.1]

/-- A step after one that makes nothing and writes nothing. -/
theorem Frame.trans_empty
    (first : Frame ∅ ∅ before middle)
    (second : Frame made written middle after) :
    Frame made written before after := by
  have both := first.trans second
  rwa [Set.empty_union, Set.empty_union] at both

/-- A step before one that makes nothing and writes nothing. -/
theorem Frame.trans_still
    (first : Frame made written before middle)
    (second : Frame ∅ ∅ middle after) :
    Frame made written before after := by
  have both := first.trans second
  rwa [Set.union_empty, Set.union_empty] at both

/-- What is written to a buffer that was made is not written to one that was there before. -/
theorem Frame.narrow
    {fewer : Set BufferId}
    (frame : Frame made written before after)
    (new : written ⊆ made ∪ fewer) :
    Frame made fewer before after where
  valid := frame.valid
  nextIndex := frame.nextIndex
  claims := frame.claims
  pinned := frame.pinned
  readings other outside kept := by
    refine frame.readings other outside fun member => ?_
    rcases new member with inside | inside
    · exact outside inside
    · exact kept inside

/-! ## Stores that look alike -/

/-- Two stores that agree on everything that matters. -/
structure Alike (before after : Store α) : Prop where
  claim? : after.claim? = before.claim?
  contents? : after.contents? = before.contents?
  pool : after.accelerator.pool = before.accelerator.pool
  nextIndex : after.nextIndex = before.nextIndex

theorem Alike.reading? (alike : Alike before after) : after.reading? = before.reading? := by
  funext buffer
  rw [reading?_eq, reading?_eq, alike.claim?, alike.contents?, alike.pool]

omit [Arithmetic α] in
theorem Alike.valid (alike : Alike before after) (valid : before.Valid) : after.Valid where
  fresh := by
    rw [alike.claim?, alike.nextIndex]
    exact valid.fresh
  wanted := by
    rw [alike.claim?]
    exact valid.wanted
  fits := by
    rw [alike.claim?, alike.contents?, alike.pool]
    exact valid.fits
  apart := by
    rw [alike.contents?]
    exact valid.apart
  named := by
    rw [alike.pool]
    exact valid.named

theorem Alike.frame (alike : Alike before after) (valid : before.Valid) :
    Frame ∅ ∅ before after where
  valid := alike.valid valid
  nextIndex := Nat.le_of_eq alike.nextIndex.symm
  claims buffer _ := by rw [alike.claim?]
  pinned buffer _ _ _ _ := by rw [alike.contents?]
  readings buffer _ _ := by rw [alike.reading?]

omit [Arithmetic α] in
theorem alike_touch (store : Store α) (buffer : BufferId) : Alike store (store.touch buffer) where
  claim? := by
    funext other
    simp only [claim?, touch, Table.get?_modify]
    split
    · cases store.buffers.get? other <;> rfl
    · rfl
  contents? := by
    funext other
    simp only [contents?, touch, Table.get?_modify]
    split
    · cases store.buffers.get? other <;> rfl
    · rfl
  pool := rfl
  nextIndex := rfl

end

end Store

end Elementwise
