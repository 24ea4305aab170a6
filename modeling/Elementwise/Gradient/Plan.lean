import Elementwise.Error
import Elementwise.Script.Basic

/-!
# Plans for the reverse sweep

Cache slots are used over and over while a script runs, so a slot alone does
not say which value an operand was.  A plan replaces every slot by the record
that wrote it last, so that the values of all records can be kept side by
side.
-/

namespace Elementwise

/-- Where an operand of a record comes from. -/
inductive Operand where
  /-- The result of an earlier record. -/
  | record (index : Nat)
  /-- A data slot. -/
  | data (index : Nat)
deriving DecidableEq, Repr, Inhabited

/-- A record whose operands are resolved. -/
structure PlannedRecord where
  opcode : OpCode
  left : Operand
  right : Option Operand
deriving DecidableEq, Repr, Inhabited

/-- The records of a script with their operands resolved. -/
structure Plan where
  records : List PlannedRecord
  /-- The number of data slots. -/
  dataLength : Nat
deriving DecidableEq, Repr, Inhabited

namespace Plan

/--
The source of the value that a record finds in a slot, given the records that
wrote slots before, the latest first.
-/
def resolve
    (index : Nat)
    (writers : List (Slot × Nat)) : Slot → Except Error Operand
  | .data slot => .ok (.data slot)
  | slot =>
      match writers.lookup slot with
      | some record => .ok (.record record)
      | none => .error (.inconsistency (.unwrittenSlot index slot))

/-- Resolves the operands of one record. -/
def resolveRecord
    (index : Nat)
    (writers : List (Slot × Nat))
    (record : Record) : Except Error PlannedRecord := do
  let left ← resolve index writers record.left
  let right ← record.right.mapM (resolve index writers)
  return ⟨record.opcode, left, right⟩

/-- Resolves records in order, the first of which has a given index. -/
def resolveFrom :
    (index : Nat) → (writers : List (Slot × Nat)) → List Record →
      Except Error (List PlannedRecord)
  | _, _, [] => .ok []
  | index, writers, record :: records => do
      let planned ← resolveRecord index writers record
      let rest ← resolveFrom (index + 1) ((record.result, index) :: writers) records
      return planned :: rest

/-- The plan of a script, which fails where a record reads a slot nobody wrote. -/
def ofScript (script : Script) : Except Error Plan := do
  return ⟨← resolveFrom 0 [] script.records, script.data.length⟩

/-- The number of records. -/
def length (plan : Plan) : Nat :=
  plan.records.length

end Plan

end Elementwise
