import Elementwise.Error
import Elementwise.Script.Basic

/-!
# Valid scripts

A script is valid if it can be run without looking anywhere but at its slots:
every operand is a data slot or a cache slot that an earlier record wrote,
every record but the last writes a cache slot, and the last one writes the
output.  `Script.validate` finds the first record at which this fails.
-/

namespace Elementwise.Script

/-- Whether a slot holds something once some cache slots have been written. -/
def isPopulated (dataSlots : Nat) (written : List Nat) : Slot → Bool
  | .data index => index < dataSlots
  | .cache index => written.contains index
  | .output => false

/--
What is wrong with a record, given the number of data slots, the number of
cache slots, the cache slots written before, and whether it is the last one.
-/
def recordDefect
    (dataSlots cacheSize : Nat)
    (written : List Nat)
    (last : Bool)
    (record : Record) : Option RecordDefect :=
  if record.opcode.isBinary ≠ record.right.isSome then
    some (.operandCount record.opcode)
  else
    match record.operands.find? (!isPopulated dataSlots written ·) with
    | some slot => some (.unpopulated slot)
    | none =>
        match record.result, last with
        | .output, true => none
        | .cache index, false =>
            if index < cacheSize then none else some (.invalidResult (.cache index))
        | slot, _ => some (.invalidResult slot)

/-- The cache slots written once a record has left its result. -/
def writtenBy (record : Record) (written : List Nat) : List Nat :=
  match record.result with
  | .cache index => index :: written
  | _ => written

/-- Checks records in order, the first of which has a given index. -/
def validateFrom
    (dataSlots cacheSize : Nat) :
    (index : Nat) → (written : List Nat) → List Record → Except Error Unit
  | _, _, [] => .ok ()
  | index, written, record :: records =>
      match recordDefect dataSlots cacheSize written records.isEmpty record with
      | some defect => .error (.inconsistency (.badRecord index defect))
      | none =>
          validateFrom dataSlots cacheSize (index + 1) (writtenBy record written) records

/-- Accepts valid scripts and says what is wrong with any other. -/
def validate (script : Script) : Except Error Unit :=
  if script.records.isEmpty then
    .error (.inconsistency .emptyScript)
  else if script.nodes.length ≠ script.length then
    .error (.inconsistency (.badRecord (script.length - 1) .nodesOutOfStep))
  else
    validateFrom script.data.length script.cacheSize 0 [] script.records

end Elementwise.Script
