import Elementwise.Gradient.Plan
import Elementwise.Script.Evaluation

/-!
# The reverse sweep at one coordinate

A sweep first runs the records forwards and keeps all their values.  It then
gives the last record the adjoint one and walks the records backwards; each
record passes its own adjoint on to its operands, multiplied by the local
derivatives.  All users of a record come after it, so its adjoint is complete
when its turn comes.  A record whose adjoint is zero passes nothing on.

The adjoint of a record or data slot is the derivative of the last value with
respect to it.
-/

namespace Elementwise

variable {α : Type} [Arithmetic α]

/-- The workspace of a sweep. -/
structure Trace (α : Type) where
  /-- The value of each record. -/
  values : Array α
  /-- The adjoint of each record. -/
  adjoints : Array α
  /-- The adjoint of each data slot. -/
  dataAdjoints : Array α

/-- A workspace of zeros for a plan. -/
def Trace.zeros (α : Type) [Arithmetic α] (plan : Plan) : Trace α where
  values := Elementwise.zeros α plan.length
  adjoints := Elementwise.zeros α plan.length
  dataAdjoints := Elementwise.zeros α plan.dataLength

namespace Operand

/-- The value of an operand at a coordinate. -/
def read
    (values : Array α)
    (inputs : Array (Array α))
    (coordinate : Nat) : Operand → Except Fault α
  | record index => elementAt values index
  | data index => do broadcastGet (← elementAt inputs index) coordinate

/-- The value of an optional right operand; an absent one is zero. -/
def read?
    (values : Array α)
    (inputs : Array (Array α))
    (coordinate : Nat) : Option Operand → Except Fault α
  | some operand => operand.read values inputs coordinate
  | none => .ok Arithmetic.zero

end Operand

namespace Plan

/-- Runs records forwards, the first of which has a given index. -/
def valuesFrom
    (inputs : Array (Array α))
    (coordinate : Nat) :
    (index : Nat) → List PlannedRecord → Array α → Except Fault (Array α)
  | _, [], values => .ok values
  | index, record :: records, values => do
      let left ← record.left.read values inputs coordinate
      let right ← Operand.read? values inputs coordinate record.right
      let values ← setElement values index (Arithmetic.eval record.opcode left right)
      valuesFrom inputs coordinate (index + 1) records values

/-- Adds to the adjoint of an operand. -/
def accumulate
    (operand : Operand)
    (amount : α)
    (trace : Trace α) : Except Fault (Trace α) :=
  match operand with
  | .record index => do
      let current ← elementAt trace.adjoints index
      return { trace with
        adjoints := ← setElement trace.adjoints index (Arithmetic.add current amount) }
  | .data index => do
      let current ← elementAt trace.dataAdjoints index
      return { trace with
        dataAdjoints :=
          ← setElement trace.dataAdjoints index (Arithmetic.add current amount) }

/-- Passes the adjoint of one record on to its operands. -/
def pull
    (inputs : Array (Array α))
    (coordinate index : Nat)
    (record : PlannedRecord)
    (trace : Trace α) : Except Fault (Trace α) := do
  let adjoint ← elementAt trace.adjoints index
  if Arithmetic.isZero adjoint then
    return trace
  let left ← record.left.read trace.values inputs coordinate
  let right ← Operand.read? trace.values inputs coordinate record.right
  let value ← elementAt trace.values index
  let (leftPartial, rightPartial) := Arithmetic.partials record.opcode left right value
  let trace ← accumulate record.left (Arithmetic.mul leftPartial adjoint) trace
  match record.right with
  | some operand => accumulate operand (Arithmetic.mul rightPartial adjoint) trace
  | none => return trace

/-- Walks records backwards, the last one first. -/
def pullAll
    (inputs : Array (Array α))
    (coordinate : Nat)
    (records : List PlannedRecord)
    (trace : Trace α) : Except Fault (Trace α) :=
  records.zipIdx.foldrM
    (fun (record, index) trace => pull inputs coordinate index record trace) trace

/-- The adjoints before the walk: one for the last record and zero for the rest. -/
def seed (plan : Plan) (trace : Trace α) : Except Fault (Trace α) := do
  let zeroed (adjoints : Array α) : Array α := adjoints.map fun _ => Arithmetic.zero
  let trace := { trace with
    adjoints := zeroed trace.adjoints, dataAdjoints := zeroed trace.dataAdjoints }
  if plan.records.isEmpty then
    return trace
  return { trace with
    adjoints := ← setElement trace.adjoints (plan.length - 1) Arithmetic.one }

/--
The values and adjoints of a plan at a coordinate.  What the workspace held
before does not matter, as long as it has the right size.
-/
def sweep
    (plan : Plan)
    (inputs : Array (Array α))
    (coordinate : Nat)
    (workspace : Trace α) : Except Fault (Trace α) := do
  let values ← valuesFrom inputs coordinate 0 plan.records workspace.values
  let trace ← plan.seed { workspace with values := values }
  pullAll inputs coordinate plan.records trace

end Plan

end Elementwise
