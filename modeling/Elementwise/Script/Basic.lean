import Elementwise.Operation.Basic
import Elementwise.Script.Slot
import Elementwise.Graph.NodeId

/-!
# Scripts

A script is the linear form of the part of a graph that one node depends on:
a list of records, each of which applies one operation to slots and leaves
the result in a slot.  Next to the records it names the node that each record
computes and the leaf behind each data slot.
-/

namespace Elementwise

/-- One instruction of a script. -/
structure Record where
  opcode : OpCode
  result : Slot
  left : Slot
  /-- Present where the operation is binary. -/
  right : Option Slot
deriving DecidableEq, Repr, Inhabited

/-- What a compilation did. -/
structure Statistics where
  records : Nat := 0
  dataSlots : Nat := 0
  /-- The largest number of cache slots in use at once. -/
  cacheSlots : Nat := 0
  /-- How many results were placed in a slot that had been used before. -/
  reusedSlots : Nat := 0
  /-- How many leaves are read exactly once. -/
  inlinedLeaves : Nat := 0
deriving DecidableEq, Repr, Inhabited

/-- The linear form of the subgraph behind one node. -/
structure Script where
  output : NodeId
  records : List Record
  /-- The node that each record computes. -/
  nodes : List NodeId
  /-- The leaf behind each data slot. -/
  data : List NodeId
  /-- How many scratch values one coordinate needs. -/
  cacheSize : Nat
  statistics : Statistics
deriving DecidableEq, Repr, Inhabited

namespace Record

/-- The slots that a record reads, the left one first. -/
def operands (record : Record) : List Slot :=
  record.left :: record.right.toList

/-- A record is written as an assignment. -/
def text (record : Record) : String :=
  let left := record.result.text ++ " = " ++ record.opcode.mnemonic ++ " " ++ record.left.text
  match record.right with
  | some right => left ++ ", " ++ right.text
  | none => left

end Record

namespace Statistics

/-- The statistics in one line. -/
def text (statistics : Statistics) : String :=
  let ⟨records, dataSlots, cacheSlots, reusedSlots, inlinedLeaves⟩ := statistics
  s!"{records} records, {dataSlots} data, {cacheSlots} cache ({reusedSlots} reused), " ++
    s!"{inlinedLeaves} leaves inlined"

end Statistics

namespace Script

/-- The number of records. -/
def length (script : Script) : Nat :=
  script.records.length

/-- How many operands the records have in all. -/
def operandCount (script : Script) : Nat :=
  script.records.foldl (fun total record => total + record.operands.length) 0

/-- A number, filled with blanks on the left up to three places. -/
def lineNumber (number : Nat) : String :=
  let digits := toString number
  "".pushn ' ' (3 - digits.length) ++ digits

/-- The lines of a listing, each with its number, its record and its node. -/
def lines (script : Script) : List String :=
  (script.records.zip script.nodes).zipIdx.map fun ((record, node), index) =>
    "  " ++ lineNumber index ++ ": " ++ record.text ++ "  ; " ++ node.text ++ "\n"

/-- The listing of a script under a heading. -/
def text (script : Script) : String :=
  "script for " ++ script.output.text ++ " (" ++ script.statistics.text ++ ")\n" ++
    String.join script.lines

end Script

end Elementwise
