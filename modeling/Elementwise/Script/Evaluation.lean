import Elementwise.Device.Kernel
import Elementwise.Script.Basic

/-!
# Running a script at one coordinate

The records of a script are run in order at one coordinate.  A data slot
reads its input at that coordinate, or at zero if the input has one element
only; a cache slot reads the workspace; the output slot reads the value
written last, which is zero at first.  The workspace keeps what was left in
it, so that one array serves all coordinates.
-/

namespace Elementwise

variable {α : Type} [Arithmetic α]

/-- The element of an input at a coordinate, a single element serving all. -/
def broadcastGet (values : Array α) (coordinate : Nat) : Except Fault α :=
  elementAt values (if values.size = 1 then 0 else coordinate)

/-- The values at one coordinate while the records of a script are run. -/
structure Scratch (α : Type) where
  /-- The cache slots. -/
  cache : Array α
  /-- The output slot. -/
  output : α

namespace Scratch

/-- What a slot reads. -/
def read
    (scratch : Scratch α)
    (inputs : Array (Array α))
    (coordinate : Nat) : Slot → Except Fault α
  | .data index => do broadcastGet (← elementAt inputs index) coordinate
  | .cache index => elementAt scratch.cache index
  | .output => .ok scratch.output

/-- What an optional right operand reads; an absent one is zero. -/
def read?
    (scratch : Scratch α)
    (inputs : Array (Array α))
    (coordinate : Nat) : Option Slot → Except Fault α
  | some slot => scratch.read inputs coordinate slot
  | none => .ok Arithmetic.zero

/-- Leaves a value in a slot; a data slot keeps what it has. -/
def write (scratch : Scratch α) (slot : Slot) (value : α) : Except Fault (Scratch α) :=
  match slot with
  | .data _ => .ok scratch
  | .cache index => do
      return { scratch with cache := ← setElement scratch.cache index value }
  | .output => .ok { scratch with output := value }

/-- Runs one record. -/
def step
    (inputs : Array (Array α))
    (coordinate : Nat)
    (scratch : Scratch α)
    (record : Record) : Except Fault (Scratch α) := do
  let left ← scratch.read inputs coordinate record.left
  let right ← scratch.read? inputs coordinate record.right
  scratch.write record.result (Arithmetic.eval record.opcode left right)

end Scratch

namespace Script

/-- The output of a list of records at a coordinate, and the workspace after it. -/
def evalAt
    (records : List Record)
    (inputs : Array (Array α))
    (coordinate : Nat)
    (workspace : Array α) : Except Fault (α × Array α) := do
  let scratch ← records.foldlM (Scratch.step inputs coordinate) ⟨workspace, Arithmetic.zero⟩
  return (scratch.output, scratch.cache)

/-- The kernel that runs a script and writes its output to the only column. -/
def kernel (script : Script) : Kernel α (Array α) where
  initial := zeros α script.cacheSize
  row coordinate inputs workspace := do
    let (output, workspace) ← evalAt script.records inputs coordinate workspace
    return (#[output], workspace)

end Script

end Elementwise
