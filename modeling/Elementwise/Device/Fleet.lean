import Mathlib.Logic.Function.Basic
import Elementwise.Device.Pool

/-!
# Several accelerators side by side

A program may use several accelerators and call them in any order.  The blocks
that they hand out are values like any others, so nothing keeps a block of one
accelerator from being given to another.

A fleet is the memory of all accelerators together with a ledger of the blocks
that were handed out.  The ledger is written by the one who holds the blocks:
a block stands in it until it is given back to the accelerator that it came
from, whatever that accelerator makes of it.
-/

namespace Elementwise

/-- A call of an accelerator. -/
inductive Call (α ω : Type) where
  | allocate (length : Nat)
  | free (block : Block)
  | upload (block : Block) (values : Array α)
  | download (block : Block) (length : Nat)
  | fill (block : Block) (value : α)
  | copy (source target : Block)
  | launch (length : Nat) (inputs outputs : List Block) (kernel : Kernel α ω)

namespace Call

variable {α ω : Type}

/-- The blocks that a call is given. -/
def blocks : Call α ω → List Block
  | allocate _ => []
  | free block => [block]
  | upload block _ => [block]
  | download block _ => [block]
  | fill block _ => [block]
  | copy source target => [source, target]
  | launch _ inputs outputs _ => outputs ++ inputs

/-- The blocks that a call writes or takes back. -/
def targets : Call α ω → List Block
  | allocate _ => []
  | free block => [block]
  | upload block _ => [block]
  | download _ _ => []
  | fill block _ => [block]
  | copy _ target => [target]
  | launch _ _ outputs _ => outputs

theorem mem_blocks_of_mem_targets
    {call : Call α ω}
    {block : Block}
    (target : block ∈ call.targets) :
    block ∈ call.blocks := by
  cases call with
  | download source length => cases target
  | copy source target => exact List.mem_cons_of_mem _ target
  | launch length inputs outputs kernel => exact List.mem_append_left _ target
  | _ => exact target

/-- The same call with other blocks. -/
def relabel (rename : Block → Block) : Call α ω → Call α ω
  | allocate length => allocate length
  | free block => free (rename block)
  | upload block values => upload (rename block) values
  | download block length => download (rename block) length
  | fill block value => fill (rename block) value
  | copy source target => copy (rename source) (rename target)
  | launch length inputs outputs kernel =>
      launch length (inputs.map rename) (outputs.map rename) kernel

end Call

/-- What a call that succeeds gives back. -/
inductive Reply (α : Type) where
  | done
  | block (block : Block)
  | values (values : Array α)
deriving DecidableEq, Repr

namespace Pool

variable {α ω : Type}

/-- A call that is refused leaves the pool as it is. -/
def orUnchanged
    (pool : Pool α) :
    Except DeviceError (Reply α × Pool α) → Except DeviceError (Reply α) × Pool α
  | .ok (reply, after) => (.ok reply, after)
  | .error error => (.error error, pool)

/-- What a pool answers to a call, and the pool afterwards. -/
def serve [Arithmetic α] (pool : Pool α) : Call α ω → Except DeviceError (Reply α) × Pool α
  | .allocate length =>
      pool.orUnchanged ((pool.allocate length).map fun (block, after) => (.block block, after))
  | .free block =>
      match pool.takeBack block with
      | (.ok (), after) => (.ok .done, after)
      | (.error reason, after) => (.error (.fault reason), after)
  | .upload block values => pool.orUnchanged ((pool.upload block values).map (.done, ·))
  | .download block length =>
      pool.orUnchanged ((pool.download block length).map fun (values, after) =>
        (.values values, after))
  | .fill block value => pool.orUnchanged ((pool.fill block value).map (.done, ·))
  | .copy source target => pool.orUnchanged ((pool.copy source target).map (.done, ·))
  | .launch length inputs outputs kernel =>
      pool.orUnchanged ((pool.launch length inputs outputs kernel).map (.done, ·))

end Pool

/-- The memory of all accelerators and the ledger of their blocks. -/
structure Fleet (α : Type) where
  pools : DeviceId → Pool α
  /-- The blocks handed out so far. -/
  issued : List Block
  /-- The blocks handed out and not yet given back to where they came from. -/
  outstanding : List Block

namespace Fleet

variable {α ω : Type}

/-- Accelerators with nothing allocated. -/
def create
    [Arithmetic α]
    (capacity : DeviceId → Nat)
    (unsupported : DeviceId → List OpCode) : Fleet α where
  pools device := Pool.create (capacity device) device (unsupported device)
  issued := []
  outstanding := []

/-- The blocks that one accelerator handed out so far. -/
def given (fleet : Fleet α) (device : DeviceId) : List Block :=
  fleet.issued.filter (·.device = device)

/-- The blocks of one accelerator that were not given back to it. -/
def held (fleet : Fleet α) (device : DeviceId) : List Block :=
  fleet.outstanding.filter (·.device = device)

/-- What the accelerator of a block has under its handle. -/
def contents? (fleet : Fleet α) (block : Block) : Option (Array α) :=
  (fleet.pools block.device).blocks.get? block.handle

/-- The fleet with another memory of one accelerator. -/
def setPool (fleet : Fleet α) (device : DeviceId) (pool : Pool α) : Fleet α :=
  { fleet with pools := Function.update fleet.pools device pool }

/-- The ledger entries for a call and its reply. -/
def record
    (fleet : Fleet α)
    (device : DeviceId)
    (call : Call α ω)
    (reply : Except DeviceError (Reply α)) : Fleet α :=
  match call with
  | .free block =>
      if block.device = device then
        { fleet with outstanding := fleet.outstanding.erase block }
      else
        fleet
  | _ =>
      match reply with
      | .ok (.block block) =>
          { fleet with
            issued := block :: fleet.issued
            outstanding := block :: fleet.outstanding }
      | _ => fleet

/-- A call of one of the accelerators: its reply and the fleet afterwards. -/
def step
    [Arithmetic α]
    (fleet : Fleet α)
    (device : DeviceId)
    (call : Call α ω) : Except DeviceError (Reply α) × Fleet α :=
  let served := (fleet.pools device).serve call
  (served.1, (fleet.setPool device served.2).record device call served.1)

section

variable {fleet : Fleet α} {device other : DeviceId} {pool : Pool α} {block : Block}

@[simp]
theorem issued_setPool : (fleet.setPool device pool).issued = fleet.issued := rfl

@[simp]
theorem outstanding_setPool : (fleet.setPool device pool).outstanding = fleet.outstanding := rfl

@[simp]
theorem given_setPool : (fleet.setPool device pool).given other = fleet.given other := rfl

@[simp]
theorem held_setPool : (fleet.setPool device pool).held other = fleet.held other := rfl

@[simp]
theorem pools_setPool : (fleet.setPool device pool).pools device = pool :=
  Function.update_self ..

theorem pools_setPool_of_ne (different : other ≠ device) :
    (fleet.setPool device pool).pools other = fleet.pools other :=
  Function.update_of_ne different ..

@[simp]
theorem setPool_pools : fleet.setPool device (fleet.pools device) = fleet := by
  rw [setPool, Function.update_eq_self]

end

end Fleet

end Elementwise
