import Elementwise.Size

/-!
# Blocks of accelerator memory

A block is named by a handle, carries the number of its elements and the
accelerator that handed it out.  The failures of an accelerator's own
operations are listed here as well; what a caller makes of them is said where
the errors of the whole library are.
-/

namespace Elementwise

/-- Tells accelerators apart. -/
structure DeviceId where
  number : Nat
deriving DecidableEq, Repr, Inhabited

/-- A handle to a block of accelerator memory. -/
structure Block where
  handle : Nat
  length : Nat
  device : DeviceId
deriving DecidableEq, Repr, Inhabited

/-- Why an accelerator refuses a call. -/
inductive DeviceError where
  /-- The pool has too few free elements. -/
  | outOfMemory (requested available : Nat)
  /-- The handle names no live block. -/
  | invalidBlock (handle : Nat)
  /-- The block and the other side of a transfer differ in length. -/
  | lengthMismatch (expected actual : Nat)
  /-- The program that was launched stopped without an answer. -/
  | fault (reason : Fault)
deriving DecidableEq, Repr

namespace Fault

/-- The description of a fault. -/
def message : Fault → String
  | overflow => "a size exceeds 64 bits"
  | outOfBounds => "an index is out of bounds"

end Fault

namespace DeviceError

/-- The description of an accelerator's refusal. -/
def message : DeviceError → String
  | outOfMemory requested available =>
      s!"out of accelerator memory: requested {requested}, available {available}"
  | invalidBlock handle => s!"invalid device block {handle}"
  | lengthMismatch expected actual =>
      s!"transfer of {actual} elements into a block of {expected}"
  | fault reason => reason.message

end DeviceError

end Elementwise
