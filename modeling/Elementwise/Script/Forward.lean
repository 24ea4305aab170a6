import Elementwise.Buffer.Access
import Elementwise.Script.Evaluation

/-!
# Running a script on the accelerator

A script is run for every coordinate of its output at once, by a launch over
the blocks of its data.  A script that does nothing but pass one input of the
output's length on is run as a copy from block to block.
-/

namespace Elementwise

variable {α : Type} [Arithmetic α]

namespace Script

/-- Refuses a script with an operation that the accelerator does not have. -/
def checkSupported (script : Script) : Store.Action α Unit := do
  let pool := (← get).accelerator.pool
  match script.records.find? (!pool.supports ·.opcode) with
  | some record => throw (.unsupportedOperation record.opcode .accelerator)
  | none => pure ()

/-- The data slot that a script does nothing but pass on. -/
def passedSlot? (script : Script) : Option Nat :=
  match script.records with
  | [{ opcode := .copy, left := .data slot, .. }] => some slot
  | _ => none

/-- Runs a script between blocks, over the length of its output. -/
def runBlocks
    (script : Script)
    (inputs : List Block)
    (output : Block)
    (length : Nat) : Store.Action α Unit := do
  let launch : Store.Action α Unit :=
    Store.perform (Accelerator.launch length inputs [output] script.kernel)
  match script.passedSlot? with
  | none => launch
  | some slot =>
      match inputs[slot]? with
      | none => throw (.fault .outOfBounds)
      | some source =>
          if source.length = length then
            Store.perform (Accelerator.copy source output)
          else
            launch

/-- Runs a script on its data and leaves the result in a buffer. -/
def forward
    (script : Script)
    (data : List BufferId)
    (output : BufferId) : Store.Action α Unit := do
  script.checkSupported
  Store.withLeases data do
    let inputs ← data.mapM Store.blockOf
    Store.withLease output .accelerator do
      let target ← Store.blockOf output
      script.runBlocks inputs target (← Store.find output).length

end Script

end Elementwise
