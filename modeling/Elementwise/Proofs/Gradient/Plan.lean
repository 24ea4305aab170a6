import Elementwise.Gradient.Plan
import Elementwise.Proofs.Script.Validity

/-!
# Plans of valid scripts

A valid script has a plan.  The plan has one record for each record of the
script, and every operand in it is a data slot of the script or a record that
comes earlier.

The writers seen so far name earlier records only, and every cache slot that
the checker counts as written has a writer.  These two facts carry the
induction over the records.
-/

namespace Elementwise

/-- An operand that is available to the record at an index. -/
def Operand.Before (dataLength index : Nat) : Operand → Prop
  | .record other => other < index
  | .data slot => slot < dataLength

/-- A record at an index whose operands are available to it. -/
structure PlannedRecord.Before
    (dataLength index : Nat)
    (record : PlannedRecord) : Prop where
  left : record.left.Before dataLength index
  right : ∀ operand ∈ record.right, operand.Before dataLength index

namespace Plan

/-- Every record of the plan reads data slots and earlier records only. -/
def Ordered (plan : Plan) : Prop :=
  ∀ (index : Nat) (record : PlannedRecord), plan.records[index]? = some record →
    record.Before plan.dataLength index

/-- The writers of the slots that hold something when the record at an index is next. -/
structure Writers
    (written : List Nat)
    (index : Nat)
    (writers : List (Slot × Nat)) : Prop where
  earlier : ∀ slot other, writers.lookup slot = some other → other < index
  present : ∀ slot ∈ written, (writers.lookup (.cache slot)).isSome

variable
    {dataLength cacheSize index : Nat}
    {written : List Nat}
    {writers : List (Slot × Nat)}

/-- A populated slot resolves to an operand that is available. -/
theorem resolve_eq_ok
    (sound : Writers written index writers)
    {slot : Slot}
    (populated : Script.isPopulated dataLength written slot) :
    ∃ operand, resolve index writers slot = .ok operand ∧
      operand.Before dataLength index := by
  cases slot with
  | data slot =>
    have inside : slot < dataLength := by simpa [Script.isPopulated] using populated
    exact ⟨.data slot, rfl, inside⟩
  | cache slot =>
    have member : slot ∈ written := by simpa [Script.isPopulated] using populated
    obtain ⟨other, found⟩ := Option.isSome_iff_exists.1 (sound.present slot member)
    refine ⟨.record other, ?_, sound.earlier _ _ found⟩
    simp [resolve, found]
  | output => cases populated

/-- Any slot but a data slot resolves to the record that wrote it last. -/
theorem lookup_of_resolve
    {slot : Slot}
    {operand : Operand}
    (notData : ∀ other, slot ≠ .data other)
    (resolved : resolve index writers slot = .ok operand) :
    ∃ record, operand = .record record ∧ writers.lookup slot = some record := by
  cases slot with
  | data slot => exact absurd rfl (notData slot)
  | cache slot =>
    simp only [resolve] at resolved
    split at resolved
    next record found =>
      cases resolved
      exact ⟨record, rfl, found⟩
    · cases resolved
  | output =>
    simp only [resolve] at resolved
    split at resolved
    next record found =>
      cases resolved
      exact ⟨record, rfl, found⟩
    · cases resolved

/-- A record that fits resolves to one whose operands are available. -/
theorem resolveRecord_eq_ok
    (sound : Writers written index writers)
    {last : Bool}
    {record : Record}
    (fits : Script.Fits dataLength cacheSize written last record) :
    ∃ planned, resolveRecord index writers record = .ok planned ∧
      planned.Before dataLength index := by
  obtain ⟨opcode, result, left, right⟩ := record
  have populated := fits.populated
  obtain ⟨leftOperand, leftResolved, leftBefore⟩ :=
    resolve_eq_ok sound (populated left (by simp [Record.operands]))
  cases right with
  | none =>
    refine ⟨⟨opcode, leftOperand, none⟩, ?_, leftBefore, fun _ absent => by cases absent⟩
    simp [resolveRecord, leftResolved, bind, Except.bind, pure, Except.pure]
  | some right =>
    obtain ⟨rightOperand, rightResolved, rightBefore⟩ :=
      resolve_eq_ok sound (populated right (by simp [Record.operands]))
    refine ⟨⟨opcode, leftOperand, some rightOperand⟩, ?_, leftBefore, ?_⟩
    · simp [resolveRecord, leftResolved, rightResolved, bind, Except.bind, pure, Except.pure,
        Functor.map, Except.map]
    · intro operand present
      cases present
      exact rightBefore

/-- A record that fits adds a writer for the slot that it writes. -/
theorem Writers.step
    (sound : Writers written index writers)
    (record : Record) :
    Writers (Script.writtenBy record written) (index + 1)
      ((record.result, index) :: writers) := by
  constructor
  · intro slot other found
    rw [List.lookup_cons] at found
    split at found
    · cases found
      exact Nat.lt_succ_self index
    · exact Nat.lt_succ_of_lt (sound.earlier slot other found)
  · intro slot member
    rw [List.lookup_cons]
    split
    · rfl
    next different =>
      refine sound.present slot ?_
      cases result : record.result with
      | data _ => simpa [Script.writtenBy, result] using member
      | output => simpa [Script.writtenBy, result] using member
      | cache other =>
        simp only [Script.writtenBy, result, List.mem_cons] at member
        rcases member with rfl | member
        · simp [result] at different
        · exact member

theorem resolveFrom_eq_ok
    (sound : Writers written index writers)
    (records : List Record)
    (fits : ∀ before record after, records = before ++ record :: after →
      Script.Fits dataLength cacheSize (Script.writtenAfter written before)
        after.isEmpty record) :
    ∃ planned, resolveFrom index writers records = .ok planned ∧
      planned.length = records.length ∧
      ∀ (offset : Nat) (record : PlannedRecord), planned[offset]? = some record →
        record.Before dataLength (index + offset) := by
  induction records generalizing written index writers with
  | nil => exact ⟨[], rfl, rfl, fun _ _ absent => by simp at absent⟩
  | cons record records step =>
    obtain ⟨head, resolved, headBefore⟩ :=
      resolveRecord_eq_ok sound (fits [] record records rfl)
    obtain ⟨tail, rest, sameLength, tailBefore⟩ := step (sound.step record)
      fun before other after split => fits (record :: before) other after (by rw [split]; rfl)
    refine ⟨head :: tail, ?_, by simp [sameLength], ?_⟩
    · simp [resolveFrom, resolved, rest, bind, Except.bind, pure, Except.pure]
    · intro offset planned found
      cases offset with
      | zero =>
        cases found
        exact headBefore
      | succ offset =>
        have before := tailBefore offset planned found
        rwa [Nat.add_assoc, Nat.add_comm 1 offset] at before

/-- A valid script has a plan, which is in order and as long as the script. -/
theorem ofScript_eq_ok
    {script : Script}
    (valid : script.validate = .ok ()) :
    ∃ plan, ofScript script = .ok plan ∧ plan.Ordered ∧
      plan.length = script.length ∧ plan.dataLength = script.data.length := by
  obtain ⟨-, -, fits⟩ := Script.validate_eq_ok_iff.1 valid
  have start : Writers [] 0 [] :=
    ⟨fun _ _ absent => (by cases absent), fun _ absent => (by cases absent)⟩
  obtain ⟨planned, resolved, sameLength, before⟩ := resolveFrom_eq_ok start script.records fits
  refine ⟨⟨planned, script.data.length⟩, ?_, ?_, sameLength, rfl⟩
  · simp [ofScript, resolved, bind, Except.bind, pure, Except.pure]
  · intro index record found
    simpa using before index record found

end Plan

end Elementwise
