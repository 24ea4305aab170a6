import Elementwise.Shape.Basic
import Elementwise.Operation.Basic
import Elementwise.Device.Block
import Elementwise.Buffer.Tier
import Elementwise.Graph.NodeId
import Elementwise.Script.Slot

/-!
# Errors

Every operation that can fail names its cause with one of the constructors of
`Error`; `Error.message` holds the wording.  Mistakes of the caller have a
constructor each.  What a sound library never runs into, such as a script
that reads a slot nobody wrote, is an `Inconsistency`.  A `Fault` is not
reported as a message at all.
-/

namespace Elementwise

/-- Who refuses an operation code. -/
inductive Backend where
  | graph
  | accelerator
deriving DecidableEq, Repr

/-- What is wrong with one record of a script. -/
inductive RecordDefect where
  /-- The script does not name one node for each record. -/
  | nodesOutOfStep
  /-- The number of operands is not that of the operation. -/
  | operandCount (opcode : OpCode)
  /-- The record reads a slot that holds nothing. -/
  | unpopulated (slot : Slot)
  /-- The record writes a slot that it may not write. -/
  | invalidResult (slot : Slot)
deriving DecidableEq, Repr

/-- A violated assumption inside the library, or a failing device. -/
inductive Inconsistency where
  | emptyScript
  | badRecord (index : Nat) (defect : RecordDefect)
  /-- No earlier record wrote a slot that a record reads. -/
  | unwrittenSlot (record : Nat) (slot : Slot)
  /-- An operand was not placed when its user was compiled. -/
  | unplacedOperand (operand user : NodeId) (position : Nat)
  /-- A lease must name the tier on which it holds the buffer. -/
  | emptyLease (buffer : BufferId)
  /-- A leased buffer is not on the accelerator. -/
  | offAccelerator (found : Tier)
  | missingContent (node : NodeId)
  | missingElement (node : NodeId)
  | missingBuffer (buffer : BufferId)
  /-- A name of a session stands for nothing, or for nothing any more. -/
  | missingName (index : Nat)
  | device (error : DeviceError)
deriving DecidableEq, Repr

/-- Why an operation of the library fails. -/
inductive Error where
  /-- Two shapes differ and neither is a scalar. -/
  | shapeMismatch (left right : Shape)
  /-- The number of values is not that of the elements they are for. -/
  | lengthMismatch (expected actual : Nat)
  /-- A coordinate lies outside a shape. -/
  | indexOutOfRange (index : List Nat) (shape : Shape)
  | axisOutOfRange (axis rank : Nat)
  /-- The accelerator is full even after eviction. -/
  | resourceExhausted (requested freed : Nat)
  | inconsistency (cause : Inconsistency)
  | unsupportedOperation (opcode : OpCode) (backend : Backend)
  | arityMismatch (opcode : OpCode) (expected actual : Nat)
  /-- Leases keep a buffer from being moved or written. -/
  | bufferBusy (buffer : BufferId)
  | unknownNode (node : NodeId)
  | notALeaf (node : NodeId)
  /-- The node has no gradient buffer. -/
  | noGradient (node : NodeId)
  | fault (reason : Fault)
deriving DecidableEq, Repr

namespace Backend

/-- The name under which a backend refuses operations. -/
def text : Backend → String
  | graph => "graph"
  | accelerator => "simulated"

end Backend

namespace RecordDefect

/-- The description of a defect. -/
def message : RecordDefect → String
  | nodesOutOfStep => "node list out of step with records"
  | operandCount opcode => opcode.mnemonic ++ " with wrong operand count"
  | unpopulated slot => "reads unpopulated slot " ++ slot.text
  | invalidResult slot => "writes invalid slot " ++ slot.text

end RecordDefect

namespace Inconsistency

/-- The description of an inconsistency. -/
def message : Inconsistency → String
  | emptyScript => "empty script"
  | badRecord index defect => s!"record {index}: " ++ defect.message
  | unwrittenSlot record slot => s!"record {record} reads unwritten slot " ++ slot.text
  | unplacedOperand operand user position =>
      "operand " ++ operand.text ++ " of " ++ user.text ++
        s!" has no slot at position {position}"
  | emptyLease buffer => buffer.text ++ ": cannot lease an empty tier"
  | offAccelerator found =>
      "lease expected accelerator storage, found " ++ found.title
  | missingContent node => node.text ++ " has no content"
  | missingElement node => node.text ++ ": host lease without data"
  | missingBuffer buffer => buffer.text ++ " does not exist"
  | missingName index => s!"nothing is named {index}"
  | device error => error.message

end Inconsistency

namespace Error

/-- The description of an error. -/
def message : Error → String
  | shapeMismatch left right => "shape mismatch: " ++ left.text ++ " vs " ++ right.text
  | lengthMismatch expected actual => s!"expected {expected} elements, got {actual}"
  | indexOutOfRange index shape =>
      "index " ++ Shape.listText index ++ " out of range for shape " ++ shape.text
  | axisOutOfRange axis rank => s!"axis {axis} out of range for rank {rank}"
  | resourceExhausted requested freed =>
      s!"accelerator exhausted: requested {requested} elements, eviction freed {freed}"
  | inconsistency cause => "internal inconsistency: " ++ cause.message
  | unsupportedOperation opcode backend =>
      "operation " ++ opcode.title ++ " is not supported by " ++ backend.text
  | arityMismatch opcode expected actual =>
      "operation " ++ opcode.title ++ s!" takes {expected} operands, got {actual}"
  | bufferBusy buffer => buffer.text ++ " is leased elsewhere and cannot migrate"
  | unknownNode node => "unknown node " ++ node.text
  | notALeaf node => "node " ++ node.text ++ " is not a leaf"
  | noGradient node => "node " ++ node.text ++ " does not track gradients"
  | fault reason => reason.message

/--
A refusal of the accelerator as an error of the library.  A full accelerator
counts as exhausted with nothing freed, and a fault stays a fault.
-/
def ofDevice : DeviceError → Error
  | .outOfMemory requested _ => resourceExhausted requested 0
  | .fault reason => fault reason
  | other => inconsistency (.device other)

end Error

/-- A computation on sizes as one that fails with an error of the library. -/
def Size.lift {α : Type} : Except Fault α → Except Error α
  | .ok value => .ok value
  | .error reason => .error (.fault reason)

end Elementwise
