import Elementwise.Buffer.Action

/-!
# Moving buffers between the tiers

Contents move to the host by downloading their block and to the accelerator
by uploading into a new one; the other representation is given up only after
the move has succeeded.  When the accelerator is full, the least recently
used buffers that nobody leases are moved to the host until enough elements
are free, and the allocation is tried exactly once more.
-/

namespace Elementwise.Store

variable {α : Type} [Arithmetic α]

/-- Moves the contents of a buffer to the host. -/
def moveToHost (buffer : BufferId) : Action α Unit := do
  let found ← find buffer
  match found.contents with
  | .host _ => pure ()
  | .empty => modify (·.replace buffer (.host (zeros α found.length)))
  | .device block =>
      let values ← perform (Accelerator.download block found.length)
      modify (·.replace buffer (.host values))

/--
Moves a buffer to the host if its download succeeds, and answers how many
elements of the accelerator that sets free.
-/
def evict (buffer : BufferId) : Action α Nat := fun store =>
  match (do let found ← find buffer; moveToHost buffer; pure found.length : Action α Nat) store with
  | .ok freed after => .ok freed after
  | .error _ after => .ok 0 after

/--
Evicts buffers one after the other until a number of elements is free; a
target of zero is never reached.
-/
def evictUntil (target : Nat) : List BufferId → Nat → Action α Nat
  | [], freed => pure freed
  | buffer :: buffers, freed =>
      if 0 < target ∧ target ≤ freed then
        pure freed
      else do
        let gained ← evict buffer
        evictUntil target buffers (freed + gained)

/--
Evicts the least recently used buffers until a number of elements is free,
or all of them for the target zero.  A device may be named to which this is
limited.
-/
def offload (target : Nat) (device : Option DeviceId) : Action α Nat := do
  evictUntil target ((← get).evictable device) 0

/-- A new block, for which buffers are evicted if the accelerator is full. -/
def allocateBlock (length : Nat) : Action α Block := do
  match ← attempt (Accelerator.allocate length) with
  | .ok block => pure block
  | .error (.outOfMemory _ _) =>
      let freed ← offload length (some (← get).accelerator.pool.id)
      match ← attempt (Accelerator.allocate length) with
      | .ok block => pure block
      | .error (.outOfMemory _ _) => throw (.resourceExhausted length freed)
      | .error error => throw (Error.ofDevice error)
  | .error error => throw (Error.ofDevice error)

/-- Takes a block back that no buffer owns. -/
def freeBlock (block : Block) (store : Store α) : Store α :=
  { store with accelerator := store.accelerator.free block }

/-- Moves the contents of a buffer to the accelerator. -/
def moveToAccelerator (buffer : BufferId) : Action α Unit := do
  let found ← find buffer
  match found.contents with
  | .device _ => pure ()
  | .empty =>
      let block ← allocateBlock found.length
      modify (·.replace buffer (.device block))
  | .host values =>
      let block ← allocateBlock found.length
      (perform (Accelerator.upload block values)).unlessDone (freeBlock block)
      modify (·.replace buffer (.device block))

/-- Moves a buffer to a tier; on the empty tier its contents are given up. -/
def move (buffer : BufferId) (tier : Tier) : Action α Unit :=
  match tier with
  | .host => moveToHost buffer
  | .accelerator => moveToAccelerator buffer
  | .empty => modify (·.replace buffer .empty)

end Elementwise.Store
