import Elementwise.Gradient.Sweep
import Elementwise.Reduction.Tree

/-!
# Adding gradients to buffers

One launch sweeps a plan at every coordinate of the output and produces a
column for each gradient buffer.  A gradient as long as the output is among
the inputs of the launch, and its column is the old gradient plus the
adjoint.  A gradient of any other length belongs to something that was
broadcast: its column goes to a buffer of its own, is summed in passes, and
the sum is added to the gradient on the host.
-/

namespace Elementwise

variable {α : Type} [Element α]

namespace Gradient

/-- A gradient buffer and the adjoint that is added to it. -/
structure Target where
  source : Operand
  buffer : BufferId
deriving DecidableEq, Repr

/-- The adjoint of a record or of a data slot. -/
def adjointOf (trace : Trace α) : Operand → Except Fault α
  | .record index => elementAt trace.adjoints index
  | .data index => elementAt trace.dataAdjoints index

/--
What goes into a column at a coordinate: an adjoint, added to the element of
an input that holds the total so far, if there is one.
-/
def contribution
    (inputs : Array (Array α))
    (coordinate : Nat)
    (trace : Trace α)
    (source : Operand)
    (total : Option Nat) : Except Fault α := do
  let adjoint ← adjointOf trace source
  match total with
  | some input =>
      let current ← elementAt (← elementAt inputs input) coordinate
      return Arithmetic.add current adjoint
  | none => return adjoint

/--
The kernel that sweeps a plan.  Every column has the source of its adjoints
and may have an input that holds the total so far; the data come first among
the inputs.
-/
def kernel
    (plan : Plan)
    (columns : List (Operand × Option Nat)) : Kernel α (Trace α) where
  initial := Trace.zeros α plan
  row coordinate inputs workspace := do
    let trace ← plan.sweep (inputs.extract 0 plan.dataLength) coordinate workspace
    let row ← columns.mapM fun (source, total) =>
      contribution inputs coordinate trace source total
    return (row.toArray, trace)

/-- A target together with the buffer in which its adjoints are summed, if one is needed. -/
abbrev Assignment := Target × Option BufferId

/--
Gives each target whose gradient differs from the output in length the next
of the spare buffers.
-/
def assign
    (domain : Nat) :
    List (Target × Nat) → (spare : List BufferId) → List Assignment
  | [], _ => []
  | (target, length) :: targets, spare =>
      if length = domain then
        (target, none) :: assign domain targets spare
      else
        (target, spare.head?) :: assign domain targets spare.tail

/-- The gradients that take their column directly. -/
def direct (assignments : List Assignment) : List BufferId :=
  assignments.filterMap fun (target, spare) =>
    if spare.isNone then some target.buffer else none

/-- The columns of a launch, whose next direct total is a given input. -/
def columns : (next : Nat) → List Assignment → List (Operand × Option Nat)
  | _, [] => []
  | next, (target, some _) :: assignments =>
      (target.source, none) :: columns next assignments
  | next, (target, none) :: assignments =>
      (target.source, some next) :: columns (next + 1) assignments

/-- Sweeps a plan over the output and writes all columns in one launch. -/
def launchSweep
    (plan : Plan)
    (data : List BufferId)
    (domain : Nat)
    (assignments : List Assignment) : Store.Action α Unit := do
  let totals := direct assignments
  Store.withLeases (data ++ totals ++ assignments.filterMap (·.2)) do
    let inputs ← (data ++ totals).mapM Store.blockOf
    let outputs ← assignments.mapM fun (target, spare) =>
      Store.blockOf (spare.getD target.buffer)
    Store.perform
      (Accelerator.launch domain inputs outputs
        (kernel plan (columns plan.dataLength assignments)))

/-- Sums the elements of a buffer on the accelerator in passes. -/
def sumUp (buffer : BufferId) (domain fanIn : Nat) : Store.Action α (Array α) := do
  let summed ← Store.withLease buffer .accelerator do
    (AxisLayout.flat domain).treeReduce fanIn Arithmetic.add
      [← Store.blockOf buffer] () firstInput
  Store.take summed

/-- Adds values to the elements of a buffer, as far as there are any. -/
def addTo (buffer : BufferId) (values : Array α) : Store.Action α Unit := do
  let _ ← Store.update buffer fun _ elements =>
    elements.mapIdx fun index element =>
      match values[index]? with
      | some value => Arithmetic.add element value
      | none => element

/-- Adds the sum of the adjoints to a gradient that takes no column directly. -/
def settle (domain fanIn : Nat) (assignment : Assignment) : Store.Action α Unit :=
  match assignment with
  | (_, none) => pure ()
  | (target, some spare) => do
      let total ← sumUp spare domain fanIn
      Store.release spare
      addTo target.buffer total

/-- Adds the adjoints of an output of a given length to the gradients of the targets. -/
def addAdjoints
    (plan : Plan)
    (data : List BufferId)
    (targets : List Target)
    (domain fanIn : Nat) : Store.Action α Unit := do
  let sized ← targets.mapM fun target => do
    return (target, (← Store.find target.buffer).length)
  let broadcast := sized.filter (·.2 ≠ domain)
  Store.withBuffers (broadcast.map fun _ => domain) fun spare => do
    let assignments := assign domain sized spare
    launchSweep plan data domain assignments
    assignments.forM (settle domain fanIn)

end Gradient

end Elementwise
