import Mathlib.Algebra.Ring.Defs
import Mathlib.Logic.Function.Basic
import Elementwise.Graph.Meaning
import Elementwise.Proofs.Gradient.Plan

/-!
# Forward differentiation of scripts

Tangents are propagated through the slots of a script in the order in which
the records are run: the tangent of a record is the sum of the tangents of
its operands, each multiplied by the local derivative.  Nothing is resolved
beforehand and no record is looked at twice, which makes this the reference
for the reverse sweep.

A tangent may be injected at every record, on top of what its operands
contribute.

The duals of the records solve the equations of the plan, in which every
operand is looked up by the record that computed it.
-/

namespace Elementwise

/-- A value and how fast it changes. -/
structure Dual (α : Type) where
  value : α
  tangent : α

variable {α : Type} [CommRing α] [Arithmetic α]

namespace Dual

/-- What an absent operand counts as. -/
def zero : Dual α := ⟨Arithmetic.zero, 0⟩

/-- The dual of an operation at two operands, with a tangent injected. -/
def apply (opcode : OpCode) (injected : α) (left right : Dual α) : Dual α :=
  let value := Arithmetic.eval opcode left.value right.value
  let slopes := Arithmetic.partials opcode left.value right.value value
  ⟨value, injected + (slopes.1 * left.tangent + slopes.2 * right.tangent)⟩

end Dual

/-- The duals that the slots hold while the records of a script are run. -/
abbrev Duals (α : Type) := Slot → Dual α

namespace Duals

/-- The duals before the first record: the inputs, with the tangents of the data slots. -/
def ofData
    (inputs : Array (Array α))
    (coordinate : Nat)
    (tangents : Nat → α) : Duals α
  | .data slot => ⟨leafElement (inputs.getD slot #[]) coordinate, tangents slot⟩
  | _ => .zero

/-- The dual of a record in terms of what its slots hold. -/
def record (duals : Duals α) (injected : α) (record : Record) : Dual α :=
  .apply record.opcode injected (duals record.left) ((record.right.map duals).getD .zero)

/-- Leaves a dual in a slot; a data slot keeps what it has. -/
def write (duals : Duals α) (slot : Slot) (dual : Dual α) : Duals α :=
  match slot with
  | .data _ => duals
  | slot => Function.update duals slot dual

/-- The duals of records that are run in order, the first of which has a given index. -/
def recordsFrom
    (injected : Nat → α) : (index : Nat) → Duals α → List Record → List (Dual α)
  | _, _, [] => []
  | index, duals, next :: records =>
      let dual := duals.record (injected index) next
      dual :: recordsFrom injected (index + 1) (duals.write next.result dual) records

end Duals

namespace Script

/-- The duals of all records of a script. -/
def duals
    (script : Script)
    (inputs : Array (Array α))
    (coordinate : Nat)
    (tangents injected : Nat → α) : List (Dual α) :=
  Duals.recordsFrom injected 0 (.ofData inputs coordinate tangents) script.records

/--
The tangent of the last record, for given tangents of the data slots and given
tangents injected at the records.
-/
def tangent
    (script : Script)
    (inputs : Array (Array α))
    (coordinate : Nat)
    (tangents injected : Nat → α) : α :=
  (((script.duals inputs coordinate tangents injected).getLast?).getD .zero).tangent

end Script

/-- The dual of an operand, given those of the data and of the records so far. -/
def Operand.dual (data : Duals α) (results : List (Dual α)) : Operand → Dual α
  | .record index => results.getD index .zero
  | .data slot => data (.data slot)

/-- The dual of a planned record, given those of the data and of the records so far. -/
def PlannedRecord.dual
    (data : Duals α)
    (results : List (Dual α))
    (injected : α)
    (record : PlannedRecord) : Dual α :=
  .apply record.opcode injected (record.left.dual data results)
    ((record.right.map (·.dual data results)).getD .zero)

/-! ## The duals of records solve the equations of the plan -/

namespace Duals

omit [CommRing α] [Arithmetic α] in
@[simp]
theorem write_data (duals : Duals α) (slot : Slot) (dual : Dual α) (index : Nat) :
    duals.write slot dual (.data index) = duals (.data index) := by
  cases slot <;> rfl

omit [CommRing α] [Arithmetic α] in
theorem write_of_not_data
    (duals : Duals α)
    (slot : Slot)
    (dual : Dual α)
    {other : Slot}
    (notData : ∀ index, other ≠ .data index) :
    duals.write slot dual other = if other = slot then dual else duals other := by
  cases slot with
  | data index => rw [write, if_neg (notData index)]
  | cache index => exact Function.update_apply ..
  | output => exact Function.update_apply ..

@[simp]
theorem length_recordsFrom
    (injected : Nat → α)
    (index : Nat)
    (duals : Duals α)
    (records : List Record) :
    (recordsFrom injected index duals records).length = records.length := by
  induction records generalizing index duals with
  | nil => rfl
  | cons record records step => simp [recordsFrom, step]

end Duals

namespace Plan

/-- The slots hold the data, and the duals of the records that wrote them last. -/
structure Tracks
    (data : Duals α)
    (writers : List (Slot × Nat))
    (results : List (Dual α))
    (duals : Duals α) : Prop where
  data : ∀ slot, duals (.data slot) = data (.data slot)
  written : ∀ slot (index : Nat), (∀ other, slot ≠ .data other) →
    writers.lookup slot = some index → results[index]? = some (duals slot)

variable
    {data duals : Duals α}
    {writers : List (Slot × Nat)}
    {results : List (Dual α)}
    {index : Nat}

/-- An operand has the dual that the slot holds from which it was resolved. -/
theorem Tracks.operand
    (tracks : Tracks data writers results duals)
    {slot : Slot}
    {operand : Operand}
    (resolved : resolve index writers slot = .ok operand)
    (later : List (Dual α)) :
    operand.dual data (results ++ later) = duals slot := by
  by_cases isData : ∃ other, slot = .data other
  · obtain ⟨other, rfl⟩ := isData
    cases resolved
    exact (tracks.data other).symm
  · have notData : ∀ other, slot ≠ .data other := fun other same => isData ⟨other, same⟩
    obtain ⟨record, rfl, writer⟩ := lookup_of_resolve notData resolved
    have held := tracks.written slot record notData writer
    obtain ⟨inside, -⟩ := List.getElem?_eq_some_iff.1 held
    rw [Operand.dual, List.getD_eq_getElem?_getD, List.getElem?_append_left inside, held,
      Option.getD_some]

/-- A planned record has the dual of the record from which it was resolved. -/
theorem Tracks.record
    (tracks : Tracks data writers results duals)
    {record : Record}
    {planned : PlannedRecord}
    (resolved : resolveRecord index writers record = .ok planned)
    (injected : α)
    (later : List (Dual α)) :
    planned.dual data (results ++ later) injected = duals.record injected record := by
  obtain ⟨opcode, result, left, right⟩ := record
  simp only [resolveRecord, bind, Except.bind] at resolved
  split at resolved
  · cases resolved
  next leftOperand leftResolved =>
    cases right with
    | none =>
      cases resolved
      simp only [PlannedRecord.dual, Duals.record, tracks.operand leftResolved later]
      rfl
    | some right =>
      simp only [Option.mapM_some, Functor.map, Except.map] at resolved
      split at resolved
      · cases resolved
      next rightOperand rightResolved =>
        split at rightResolved
        · cases rightResolved
        next operand inner =>
          cases rightResolved
          cases resolved
          simp only [PlannedRecord.dual, Duals.record, tracks.operand leftResolved later,
            Option.map_some, Option.getD_some, tracks.operand inner later]

omit [CommRing α] [Arithmetic α] in
theorem Tracks.step
    (tracks : Tracks data writers results duals)
    (slot : Slot)
    (dual : Dual α) :
    Tracks data ((slot, results.length) :: writers) (results ++ [dual])
      (duals.write slot dual) := by
  constructor
  · intro other
    rw [Duals.write_data, tracks.data other]
  · intro other index notData found
    rw [Duals.write_of_not_data _ _ _ notData]
    rw [List.lookup_cons] at found
    by_cases same : other = slot
    · subst same
      simp only [beq_self_eq_true, Option.some.injEq] at found
      subst found
      simp
    · rw [if_neg same]
      have different : (other == slot) = false := by simpa using same
      rw [different] at found
      have held := tracks.written other index notData found
      obtain ⟨inside, -⟩ := List.getElem?_eq_some_iff.1 held
      rw [List.getElem?_append_left inside, held]

/-- The duals of records solve the equations of their plan. -/
theorem Tracks.recordsFrom
    (injected : Nat → α)
    (tracks : Tracks data writers results duals)
    (records : List Record)
    {planned : List PlannedRecord}
    (resolved : resolveFrom results.length writers records = .ok planned)
    {offset : Nat}
    {record : PlannedRecord}
    (found : planned[offset]? = some record) :
    (Duals.recordsFrom injected results.length duals records)[offset]? =
      some (record.dual data
        (results ++ Duals.recordsFrom injected results.length duals records)
        (injected (results.length + offset))) := by
  induction records generalizing duals writers results planned offset with
  | nil =>
    cases resolved
    simp at found
  | cons next records step =>
    simp only [resolveFrom, bind, Except.bind] at resolved
    split at resolved
    · cases resolved
    next head headResolved =>
      split at resolved
      · cases resolved
      next tail tailResolved =>
        cases resolved
        cases offset with
        | zero =>
          cases found
          rw [tracks.record headResolved]
          rfl
        | succ offset =>
          have advanced := tracks.step next.result
            (duals.record (injected results.length) next)
          have later : tail[offset]? = some record := by simpa using found
          have rest := step advanced (by simpa using tailResolved) later
          simp only [List.length_append, List.length_singleton, List.append_assoc,
            List.singleton_append] at rest
          rw [Duals.recordsFrom, List.getElem?_cons_succ, rest,
            Nat.add_assoc, Nat.add_comm 1 offset]

/-- The duals of a script solve the equations of its plan. -/
theorem duals_eq
    {script : Script}
    {plan : Plan}
    (planned : ofScript script = .ok plan)
    (inputs : Array (Array α))
    (coordinate : Nat)
    (tangents injected : Nat → α)
    {index : Nat}
    {record : PlannedRecord}
    (found : plan.records[index]? = some record) :
    (script.duals inputs coordinate tangents injected)[index]? =
      some (record.dual (.ofData inputs coordinate tangents)
        (script.duals inputs coordinate tangents injected) (injected index)) := by
  simp only [ofScript, bind, Except.bind] at planned
  split at planned
  · cases planned
  next records resolved =>
    cases planned
    have start : Tracks (Duals.ofData inputs coordinate tangents) [] []
        (.ofData inputs coordinate tangents) :=
      ⟨fun _ => rfl, fun _ _ _ absent => by cases absent⟩
    simpa [Script.duals] using start.recordsFrom injected script.records resolved found

end Plan

end Elementwise
