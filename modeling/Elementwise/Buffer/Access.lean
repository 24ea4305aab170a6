import Elementwise.Buffer.Migration

/-!
# Reading, writing and leasing buffers

A lease pins a buffer to a tier.  Leases of one buffer on the same tier go
together; everything that would move or write the buffer is refused while one
stands.  A lease counts as an access even when it is refused, every other
operation only when it is not.
-/

namespace Elementwise.Store

variable {α : Type} [Arithmetic α]

/-- Refuses to go on while a buffer is leased, and counts as an access otherwise. -/
def claim (buffer : BufferId) : Action α Unit := do
  if 0 < (← find buffer).leases then
    throw (.bufferBusy buffer)
  modify (·.touch buffer)

/-- Moves a buffer to a tier. -/
def ensure (buffer : BufferId) (tier : Tier) : Action α Unit := do
  claim buffer
  move buffer tier

/-- Gives up the contents of a buffer, which reads as zeros afterwards. -/
def release (buffer : BufferId) : Action α Unit :=
  ensure buffer .empty

/-- Pins a buffer to a tier, where it is moved first if nobody else leases it. -/
def lease (buffer : BufferId) (tier : Tier) : Action α Unit := do
  if tier = .empty then
    throw (.inconsistency (.emptyLease buffer))
  modify (·.touch buffer)
  let found ← find buffer
  if found.tier ≠ tier then
    if 0 < found.leases then
      throw (.bufferBusy buffer)
    move buffer tier
  modify (·.pin buffer)

/-- Runs an action while a buffer is pinned to a tier. -/
def withLease
    {β : Type}
    (buffer : BufferId)
    (tier : Tier)
    (body : Action α β) : Action α β := do
  lease buffer tier
  body.followedBy (·.unpin buffer)

/-- Runs an action while buffers are pinned to the accelerator, in the order given. -/
def withLeasesInOrder {β : Type} : List BufferId → Action α β → Action α β
  | [], body => body
  | buffer :: buffers, body =>
      withLease buffer .accelerator (withLeasesInOrder buffers body)

/--
Runs an action while buffers are pinned to the accelerator.  They are leased
in the order of their identifiers, so that the order does not depend on what
they are needed for.
-/
def withLeases
    {β : Type}
    (buffers : List BufferId)
    (body : Action α β) : Action α β :=
  withLeasesInOrder (buffers.mergeSort fun left right => left.index ≤ right.index) body

/-- The block of a buffer that is on the accelerator. -/
def blockOf (buffer : BufferId) : Action α Block := do
  match (← find buffer).contents with
  | .device block => pure block
  | contents => throw (.inconsistency (.offAccelerator contents.tier))

/-- The host values of a buffer; one elsewhere has none. -/
def hostValues (buffer : BufferId) : Action α (Array α) := do
  match (← find buffer).contents with
  | .host values => pure values
  | _ => pure #[]

/-- Reads a buffer on the host. -/
def read (buffer : BufferId) : Action α (Array α) :=
  withLease buffer .host (hostValues buffer)

/-- Replaces the contents of a buffer, which is on the host afterwards. -/
def write (buffer : BufferId) (values : Array α) : Action α Unit := do
  let length := (← find buffer).length
  if values.size ≠ length then
    throw (.lengthMismatch length values.size)
  claim buffer
  modify (·.replace buffer (.host values))

/--
Changes the elements of a buffer on the host in any way that leaves their
number alone, and answers that number.
-/
def update
    (buffer : BufferId)
    (change : (size : Nat) → Vector α size → Vector α size) : Action α Nat := do
  claim buffer
  moveToHost buffer
  let values ← hostValues buffer
  modify (·.replace buffer (.host (change _ values.toVector).toArray))
  return values.size

/-- Stores one value in every element of a buffer, on the tier where it is. -/
def fill (buffer : BufferId) (value : α) : Action α Unit := do
  claim buffer
  let found ← find buffer
  match found.contents with
  | .device block => perform (Accelerator.fill block value)
  | .host values => modify (·.replace buffer (.host (values.map fun _ => value)))
  | .empty =>
      modify (·.replace buffer (.host (Array.replicate found.length value)))

/-- Stores zero in every element of a buffer. -/
def clear (buffer : BufferId) : Action α Unit :=
  fill buffer Arithmetic.zero

end Elementwise.Store
