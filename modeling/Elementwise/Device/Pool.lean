import Elementwise.Table
import Elementwise.Device.Block
import Elementwise.Device.Kernel
import Elementwise.Operation.Basic

/-!
# The accelerator's memory and its launches

A pool holds the live blocks of one accelerator under their handles.  Handles
are given out in increasing order and never again.  The pool has a fixed
capacity in elements, of which `used` are taken.

A call that is refused has no effect, so every operation either gives the
next pool or a reason.  Blocks are recognised by handle.  A launch reads all
its inputs as they were before it, runs the kernel at every index, and then
writes the columns into the output blocks one after the other.
-/

namespace Elementwise

/-- How many calls of each kind succeeded. -/
structure Counters where
  allocations : Nat := 0
  frees : Nat := 0
  uploads : Nat := 0
  downloads : Nat := 0
  launches : Nat := 0
deriving DecidableEq, Repr, Inhabited

/-- The memory of one accelerator. -/
structure Pool (α : Type) where
  id : DeviceId
  /-- How many elements the pool can hold. -/
  capacity : Nat
  /-- The operations for which there is no program. -/
  unsupported : List OpCode
  /-- The contents of the live blocks by handle. -/
  blocks : Table Nat (Array α)
  /-- How many elements are allocated. -/
  used : Nat
  nextHandle : Nat
  counters : Counters

namespace Pool

variable {α : Type} [Arithmetic α]

/-- A pool with nothing allocated. -/
def create
    (capacity : Nat)
    (id : DeviceId)
    (unsupported : List OpCode) : Pool α where
  id := id
  capacity := capacity
  unsupported := unsupported
  blocks := Table.empty
  used := 0
  nextHandle := 0
  counters := {}

/-- The elements still free. -/
def available (pool : Pool α) : Nat :=
  pool.capacity - pool.used

/-- Whether there is a program for an operation. -/
def supports (pool : Pool α) (opcode : OpCode) : Bool :=
  !pool.unsupported.contains opcode

/-- The contents of a live block. -/
def contents (pool : Pool α) (block : Block) : Except DeviceError (Array α) :=
  match pool.blocks.get? block.handle with
  | some values => .ok values
  | none => .error (.invalidBlock block.handle)

/-- Refuses a transfer between sides of different lengths. -/
def checkLength (expected actual : Nat) : Except DeviceError Unit :=
  if expected = actual then
    .ok ()
  else
    .error (.lengthMismatch expected actual)

/-- A new block of zeros. -/
def allocate (pool : Pool α) (length : Nat) : Except DeviceError (Block × Pool α) :=
  if pool.available < length then
    .error (.outOfMemory length pool.available)
  else
    .ok (⟨pool.nextHandle, length, pool.id⟩,
      { pool with
        blocks := pool.blocks.insert pool.nextHandle (zeros α length)
        used := pool.used + length
        nextHandle := pool.nextHandle + 1
        counters.allocations := pool.counters.allocations + 1 })

/--
Takes back a block; one that is not live is ignored.  A live handle that
claims more elements than are allocated loses its contents, but nothing is
accounted for and an overflow is reported.
-/
def takeBack (pool : Pool α) (block : Block) : Except Fault Unit × Pool α :=
  if pool.blocks.contains block.handle then
    if block.length ≤ pool.used then
      (.ok (),
        { pool with
          blocks := pool.blocks.erase block.handle
          used := pool.used - block.length
          counters.frees := pool.counters.frees + 1 })
    else
      (.error .overflow, { pool with blocks := pool.blocks.erase block.handle })
  else
    (.ok (), pool)

/-- The pool after a block was taken back. -/
def free (pool : Pool α) (block : Block) : Pool α :=
  (pool.takeBack block).2

/-- Stores values in a block of their number. -/
def upload
    (pool : Pool α)
    (block : Block)
    (values : Array α) : Except DeviceError (Pool α) := do
  let current ← pool.contents block
  checkLength current.size values.size
  return { pool with
    blocks := pool.blocks.modify block.handle fun _ => values
    counters.uploads := pool.counters.uploads + 1 }

/-- Reads a block into a place for a given number of elements. -/
def download
    (pool : Pool α)
    (block : Block)
    (length : Nat) : Except DeviceError (Array α × Pool α) := do
  let current ← pool.contents block
  checkLength current.size length
  return (current,
    { pool with counters.downloads := pool.counters.downloads + 1 })

/-- Stores one value in every element of a block. -/
def fill
    (pool : Pool α)
    (block : Block)
    (value : α) : Except DeviceError (Pool α) := do
  let _ ← pool.contents block
  return { pool with
    blocks := pool.blocks.modify block.handle (·.map fun _ => value) }

/-- Copies one block into another of the same length. -/
def copy (pool : Pool α) (source target : Block) : Except DeviceError (Pool α) := do
  let values ← pool.contents source
  let current ← pool.contents target
  checkLength current.size values.size
  return { pool with blocks := pool.blocks.modify target.handle fun _ => values }

/-- Refuses an output block that is dead or too short for a launch. -/
def checkOutput
    (pool : Pool α)
    (length : Nat)
    (output : Block) : Except DeviceError Unit := do
  let current ← pool.contents output
  if current.size < length then
    throw (.lengthMismatch length current.size)

/--
The contents of a block after one column of the rows is written to its front;
elements beyond the last row stay.
-/
def writeColumn
    (rows : Array (Array α))
    (column : Nat)
    (values : Array α) : Array α :=
  values.mapIdx fun index value =>
    match rows[index]? with
    | some row => row.getD column Arithmetic.zero
    | none => value

/-- The blocks after the columns from `column` on are written to the outputs. -/
def writeColumns
    (rows : Array (Array α)) :
    (column : Nat) → List Block → Table Nat (Array α) → Table Nat (Array α)
  | _, [], blocks => blocks
  | column, output :: outputs, blocks =>
      writeColumns rows (column + 1) outputs
        (blocks.modify output.handle (writeColumn rows column))

/-- Runs a kernel at every index below a length; without outputs it has no work. -/
def launch
    {ω : Type}
    (pool : Pool α)
    (length : Nat)
    (inputs outputs : List Block)
    (kernel : Kernel α ω) : Except DeviceError (Pool α) := do
  outputs.forM (pool.checkOutput length)
  let views ← inputs.mapM pool.contents
  let count := if outputs.isEmpty then 0 else length
  match kernel.rows views.toArray count with
  | .error reason => throw (.fault reason)
  | .ok rows =>
      return { pool with
        blocks := writeColumns rows 0 outputs pool.blocks
        counters.launches := pool.counters.launches + 1 }

@[simp]
theorem size_writeColumn
    (rows : Array (Array α))
    (column : Nat)
    (values : Array α) :
    (writeColumn rows column values).size = values.size := by
  simp [writeColumn]

end Pool

end Elementwise
