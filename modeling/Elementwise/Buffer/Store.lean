import Elementwise.Error
import Elementwise.Device.Accelerator

/-!
# The buffer store

A buffer is a flat array of fixed length.  Its contents are empty, an array
in host memory, or a block of accelerator memory, and never two of these.
Empty contents read as zeros.

The store keeps every buffer that somebody holds or leases, under an
identifier that is never given out twice.  A clock counts accesses; each
access stamps the buffer with a time of its own, so that stamps order the
buffers from the least to the most recently used.  A buffer is gone, and its
block is taken back, as soon as neither a holder nor a lease is left.

Buffers are counted and searched through a registry.  It lists every buffer
from the time it is made; a buffer that is gone stays listed until the dead
entries are dropped, which happens at regular intervals.  Each buffer also
says by itself on which tier it is, so that its contents need not be looked
at.
-/

namespace Elementwise

/-- What a buffer holds. -/
inductive Contents (α : Type) where
  | empty
  | host (values : Array α)
  | device (block : Block)

/-- A flat array of fixed length on one tier. -/
structure Buffer (α : Type) where
  length : Nat
  contents : Contents α
  /-- The tier that the contents were on when they were last replaced. -/
  location : Tier
  /-- The time of the last access. -/
  stamp : Nat
  /-- How many holders keep the buffer alive. -/
  holders : Nat
  /-- How many leases pin the buffer to its tier. -/
  leases : Nat

/-- All buffers, and the accelerator between which and the host they move. -/
structure Store (α : Type) where
  accelerator : Accelerator α
  buffers : Table BufferId (Buffer α)
  /-- The time of the last access to any buffer. -/
  clock : Nat
  /-- The index of the next buffer. -/
  nextIndex : Nat
  /-- The buffers made so far, less the dead ones that were dropped, the latest first. -/
  registry : List BufferId
  /-- How many buffers were made. -/
  registrations : Nat

namespace Contents

variable {α : Type}

/-- The tier that holds the contents. -/
def tier : Contents α → Tier
  | empty => .empty
  | host _ => .host
  | device _ => .accelerator

/-- The block that holds the contents, if one does. -/
def block? : Contents α → Option Block
  | device block => some block
  | _ => none

/-- The accelerator after the block behind discarded contents is taken back. -/
def discardOn [Arithmetic α] : Contents α → Accelerator α → Accelerator α
  | device block, accelerator => accelerator.free block
  | _, accelerator => accelerator

end Contents

namespace Buffer

variable {α : Type}

/-- The tier that holds the buffer. -/
def tier (buffer : Buffer α) : Tier :=
  buffer.contents.tier

/-- Whether anybody still needs the buffer. -/
def isWanted (buffer : Buffer α) : Bool :=
  0 < buffer.holders || 0 < buffer.leases

/--
Whether the buffer may be moved off the accelerator to make room, where a
device may be named to which the search is limited.
-/
def isEvictable (device : Option DeviceId) (buffer : Buffer α) : Bool :=
  buffer.location == .accelerator && buffer.leases == 0 &&
    match buffer.contents with
    | .device block => device.all (· == block.device)
    | _ => false

end Buffer

namespace Store

variable {α : Type} [Arithmetic α]

/-- A store without buffers. -/
def create (accelerator : Accelerator α) : Store α where
  accelerator := accelerator
  buffers := Table.empty
  clock := 0
  nextIndex := 0
  registry := []
  registrations := 0

/-- Dead entries of the registry are dropped once in so many registrations. -/
def pruneInterval : Nat := 64

/--
What a buffer reads as, whatever its tier: the values on the host, those of
its block, or zeros.
-/
def reading? (store : Store α) (buffer : BufferId) : Option (Array α) := do
  let found ← store.buffers.get? buffer
  match found.contents with
  | .empty => some (zeros α found.length)
  | .host values => some values
  | .device block => store.accelerator.pool.blocks.get? block.handle

/-- The live buffers that the registry lists. -/
def registered (store : Store α) : List (BufferId × Buffer α) :=
  store.registry.filterMap fun buffer => (buffer, ·) <$> store.buffers.get? buffer

omit [Arithmetic α] in
theorem mem_registered
    {store : Store α}
    {buffer : BufferId}
    {found : Buffer α} :
    (buffer, found) ∈ store.registered ↔
      buffer ∈ store.registry ∧ store.buffers.get? buffer = some found := by
  simp [registered, List.mem_filterMap, Option.map_eq_some_iff]

/-- The number of live buffers. -/
def count (store : Store α) : Nat :=
  store.registered.length

/-- How many elements are held on a tier. -/
def usage (store : Store α) (tier : Tier) : Nat :=
  store.registered.foldl
    (fun total entry => if entry.2.location = tier then total + entry.2.length else total) 0

/-- Stamps a buffer with a new time. -/
def touch (store : Store α) (buffer : BufferId) : Store α :=
  { store with
    clock := store.clock + 1
    buffers := store.buffers.modify buffer fun found =>
      { found with stamp := store.clock + 1 } }

/-- Lists a buffer in the registry, from which dead entries are dropped at intervals. -/
def enlist (store : Store α) (buffer : BufferId) : Store α :=
  let listed := buffer :: store.registry
  { store with
    registrations := store.registrations + 1
    registry :=
      if store.registrations % pruneInterval = pruneInterval - 1 then
        listed.filter store.buffers.contains
      else
        listed }

/-- A new buffer with one holder. -/
def register
    (store : Store α)
    (length : Nat)
    (contents : Contents α) : BufferId × Store α :=
  let buffer : BufferId := ⟨store.nextIndex⟩
  let made : Buffer α :=
    { length, contents, location := contents.tier, stamp := store.clock + 1, holders := 1,
      leases := 0 }
  (buffer,
    enlist
      { store with
        clock := store.clock + 1
        nextIndex := store.nextIndex + 1
        buffers := store.buffers.insert buffer made }
      buffer)

/-- Replaces the contents of a buffer and takes back the block behind the old. -/
def replace
    (store : Store α)
    (buffer : BufferId)
    (contents : Contents α) : Store α :=
  match store.buffers.get? buffer with
  | none => store
  | some found =>
      { store with
        accelerator := found.contents.discardOn store.accelerator
        buffers := store.buffers.modify buffer fun found =>
          { found with contents := contents, location := contents.tier } }

/-- Removes a buffer that nobody wants, and takes back its block. -/
def reclaim (store : Store α) (buffer : BufferId) : Store α :=
  match store.buffers.get? buffer with
  | none => store
  | some found =>
      if found.isWanted then
        store
      else
        { store with
          accelerator := found.contents.discardOn store.accelerator
          buffers := store.buffers.erase buffer }

/-- One more holder. -/
def hold (store : Store α) (buffer : BufferId) : Store α :=
  { store with
    buffers := store.buffers.modify buffer fun found =>
      { found with holders := found.holders + 1 } }

/-- One holder fewer; the last one to leave ends the buffer unless it is leased. -/
def drop (store : Store α) (buffer : BufferId) : Store α :=
  reclaim
    { store with
      buffers := store.buffers.modify buffer fun found =>
        { found with holders := found.holders - 1 } }
    buffer

/-- One more lease. -/
def pin (store : Store α) (buffer : BufferId) : Store α :=
  { store with
    buffers := store.buffers.modify buffer fun found =>
      { found with leases := found.leases + 1 } }

/-- One lease fewer; the last one to end ends the buffer unless it is held. -/
def unpin (store : Store α) (buffer : BufferId) : Store α :=
  reclaim
    { store with
      buffers := store.buffers.modify buffer fun found =>
        { found with leases := found.leases - 1 } }
    buffer

/-- The buffers that may make room, the least recently used first. -/
def evictable (store : Store α) (device : Option DeviceId) : List BufferId :=
  ((store.registered.filter (·.2.isEvictable device)).mergeSort
    fun left right => left.2.stamp ≤ right.2.stamp).map Prod.fst

end Store

end Elementwise
