import Elementwise.Proofs.Gradient.Adjoint
import Elementwise.Proofs.Gradient.Sweep

/-!
# Two ways to run a script

A script can be run in place, with its values in cache slots that are used
over and over, or through its plan, with the values of all records side by
side.  On a valid script both succeed wherever the inputs have an element and
agree on the last value, whatever the workspaces contain.

The two runs mirror each other: a slot that has a writer contains the value of
the record that wrote it last.  A record may overwrite a slot that it reads,
since its operands are read before its result is written.
-/

namespace Elementwise

variable {α : Type} [Arithmetic α]

/-! ## Slots and the records that wrote them -/

/-- What a slot contains that a record can write. -/
def Scratch.held? (scratch : Scratch α) : Slot → Option α
  | .data _ => none
  | .cache index => scratch.cache[index]?
  | .output => some scratch.output

namespace Scratch

variable
    {scratch : Scratch α}
    {inputs : Array (Array α)}
    {coordinate : Nat}

omit [Arithmetic α] in
theorem read_of_held?
    {slot : Slot}
    {value : α}
    (held : scratch.held? slot = some value) :
    scratch.read inputs coordinate slot = .ok value := by
  cases slot with
  | data index => cases held
  | cache index => exact elementAt_eq_ok_iff.2 held
  | output =>
    cases held
    rfl

end Scratch

namespace Plan

/-- Every slot that has a writer contains the value of the record that wrote it last. -/
def Mirrors
    (writers : List (Slot × Nat))
    (values : Array α)
    (scratch : Scratch α) : Prop :=
  ∀ slot record, writers.lookup slot = some record →
    ∃ value, scratch.held? slot = some value ∧ values[record]? = some value

variable
    {inputs : Array (Array α)}
    {coordinate dataLength cacheSize index : Nat}
    {written : List Nat}
    {writers : List (Slot × Nat)}
    {values : Array α}
    {scratch : Scratch α}

omit [Arithmetic α] in
theorem mirrors_nil (values : Array α) (scratch : Scratch α) : Mirrors [] values scratch :=
  fun _ _ absent => by cases absent

omit [Arithmetic α] in
/-- A slot reads what the operand reads to which it is resolved. -/
theorem Mirrors.read
    (mirrors : Mirrors writers values scratch)
    {slot : Slot}
    {operand : Operand}
    (resolved : resolve index writers slot = .ok operand) :
    scratch.read inputs coordinate slot = operand.read values inputs coordinate := by
  by_cases isData : ∃ other, slot = .data other
  · obtain ⟨other, rfl⟩ := isData
    cases resolved
    rfl
  · have notData : ∀ other, slot ≠ .data other := fun other same => isData ⟨other, same⟩
    obtain ⟨record, rfl, writer⟩ := lookup_of_resolve notData resolved
    obtain ⟨value, held, found⟩ := mirrors slot record writer
    exact (Scratch.read_of_held? held).trans (elementAt_eq_ok_iff.2 found).symm

theorem Mirrors.read?
    (mirrors : Mirrors writers values scratch)
    {slot : Option Slot}
    {operand : Option Operand}
    (resolved : slot.mapM (resolve index writers) = .ok operand) :
    scratch.read? inputs coordinate slot =
      Operand.read? values inputs coordinate operand := by
  cases slot with
  | none =>
    cases resolved
    rfl
  | some slot =>
    obtain ⟨present, presentResolved, rfl⟩ := map_eq_ok_iff.1 resolved
    exact mirrors.read presentResolved

omit [Arithmetic α] in
/-- A resolved record applies the same operation to operands resolved one by one. -/
theorem parts_of_resolveRecord
    {record : Record}
    {planned : PlannedRecord}
    (resolved : resolveRecord index writers record = .ok planned) :
    planned.opcode = record.opcode ∧
      resolve index writers record.left = .ok planned.left ∧
      record.right.mapM (resolve index writers) = .ok planned.right := by
  obtain ⟨left, leftResolved, resolved⟩ := bind_eq_ok_iff.1 resolved
  obtain ⟨right, rightResolved, resolved⟩ := bind_eq_ok_iff.1 resolved
  cases resolved
  exact ⟨rfl, leftResolved, rightResolved⟩

omit [Arithmetic α] in
/-- A record that fits can write its result, and nothing else changes. -/
theorem write_of_fits
    {last : Bool}
    {record : Record}
    (fits : Script.Fits dataLength cacheSize written last record)
    (enough : cacheSize ≤ scratch.cache.size)
    (value : α) :
    ∃ next, scratch.write record.result value = .ok next ∧
      next.cache.size = scratch.cache.size ∧
      next.held? record.result = some value ∧
      ∀ slot, slot ≠ record.result → next.held? slot = scratch.held? slot := by
  cases last with
  | true =>
    rw [fits.output rfl]
    refine ⟨{ scratch with output := value }, rfl, rfl, rfl, fun slot different => ?_⟩
    cases slot with
    | data _ => rfl
    | cache _ => rfl
    | output => exact absurd rfl different
  | false =>
    obtain ⟨place, below, result⟩ := fits.cache rfl
    have inside : place < scratch.cache.size := Nat.lt_of_lt_of_le below enough
    rw [result]
    refine ⟨⟨scratch.cache.setIfInBounds place value, scratch.output⟩, ?_, by simp, ?_, ?_⟩
    · simp only [Scratch.write, setElement, inside, if_true, bind, Except.bind, pure, Except.pure]
    · simp [Scratch.held?, inside]
    · intro slot different
      cases slot with
      | data _ => rfl
      | output => rfl
      | cache other =>
        have apart : place ≠ other := fun same => different (by rw [same])
        exact Array.getElem?_setIfInBounds_ne apart

omit [Arithmetic α] in
/-- The runs go on mirroring each other once both have kept the value of a record. -/
theorem Mirrors.step
    (mirrors : Mirrors writers values scratch)
    (sound : Writers written index writers)
    (inside : index < values.size)
    {next : Scratch α}
    {result : Slot}
    {value : α}
    (held : next.held? result = some value)
    (kept : ∀ slot, slot ≠ result → next.held? slot = scratch.held? slot) :
    Mirrors ((result, index) :: writers) (values.setIfInBounds index value) next := by
  intro slot record found
  rw [List.lookup_cons] at found
  split at found
  next same =>
    cases found
    obtain rfl : slot = result := by simpa using same
    exact ⟨value, held, by simp [inside]⟩
  next different =>
    obtain ⟨old, oldHeld, oldFound⟩ := mirrors slot record found
    have earlier := sound.earlier slot record found
    refine ⟨old, ?_, ?_⟩
    · rw [kept slot (by simpa using different)]
      exact oldHeld
    · rw [Array.getElem?_setIfInBounds_ne (by omega)]
      exact oldFound

/-! ## One record in both runs -/

/--
A record that fits is run in both ways: its operands are read with the same
values, and the runs mirror each other after it.
-/
theorem Mirrors.record
    (mirrors : Mirrors writers values scratch)
    (sound : Writers written index writers)
    (readable : Readable inputs dataLength coordinate)
    (enough : cacheSize ≤ scratch.cache.size)
    (inside : index < values.size)
    {last : Bool}
    {record : Record}
    (fits : Script.Fits dataLength cacheSize written last record)
    {planned : PlannedRecord}
    (resolved : resolveRecord index writers record = .ok planned) :
    ∃ next after,
      scratch.step inputs coordinate record = .ok next ∧
      (∀ records, valuesFrom inputs coordinate index (planned :: records) values =
        valuesFrom inputs coordinate (index + 1) records after) ∧
      next.cache.size = scratch.cache.size ∧ after.size = values.size ∧
      Mirrors ((record.result, index) :: writers) after next := by
  obtain ⟨other, resolvedAgain, before⟩ := resolveRecord_eq_ok sound fits
  obtain rfl : planned = other := by
    rw [resolved] at resolvedAgain
    exact Except.ok.inj resolvedAgain
  obtain ⟨sameOpcode, leftResolved, rightResolved⟩ := parts_of_resolveRecord resolved
  have filled : index ≤ values.size := Nat.le_of_lt inside
  obtain ⟨left, leftRead⟩ := Operand.read_isOk readable filled before.left
  obtain ⟨right, rightRead⟩ := Operand.read?_isOk readable filled before.right
  obtain ⟨next, writes, sameSize, held, kept⟩ :=
    write_of_fits fits enough (Arithmetic.eval record.opcode left right)
  refine ⟨next, values.setIfInBounds index (Arithmetic.eval record.opcode left right),
    ?_, fun records => ?_, sameSize, by simp, mirrors.step sound inside held kept⟩
  · rw [Scratch.step, mirrors.read leftResolved, leftRead, mirrors.read? rightResolved, rightRead]
    exact writes
  · simp only [valuesFrom, leftRead, rightRead, sameOpcode, setElement, inside, if_true, bind,
      Except.bind]

/-! ## Whole runs -/

/-- Records that fit are run in both ways, and the last of them gives the same value in both. -/
theorem Mirrors.records
    (mirrors : Mirrors writers values scratch)
    (sound : Writers written index writers)
    (readable : Readable inputs dataLength coordinate)
    (enough : cacheSize ≤ scratch.cache.size)
    {records : List Record}
    (fits : ∀ before record after, records = before ++ record :: after →
      Script.Fits dataLength cacheSize (Script.writtenAfter written before)
        after.isEmpty record)
    {planned : List PlannedRecord}
    (resolved : resolveFrom index writers records = .ok planned)
    (room : index + records.length ≤ values.size) :
    ∃ next after,
      records.foldlM (Scratch.step inputs coordinate) scratch = .ok next ∧
      valuesFrom inputs coordinate index planned values = .ok after ∧
      next.cache.size = scratch.cache.size ∧
      (records ≠ [] → after[index + records.length - 1]? = some next.output) := by
  induction records generalizing index writers written values scratch planned with
  | nil =>
    cases resolved
    exact ⟨scratch, values, rfl, rfl, rfl, fun nonempty => absurd rfl nonempty⟩
  | cons record records step =>
    obtain ⟨head, headResolved, resolved⟩ := bind_eq_ok_iff.1 resolved
    obtain ⟨tail, tailResolved, resolved⟩ := bind_eq_ok_iff.1 resolved
    cases resolved
    simp only [List.length_cons] at room
    have headFits := fits [] record records rfl
    obtain ⟨middle, filled, stepped, runs, middleSize, filledSize, middleMirrors⟩ :=
      mirrors.record sound readable enough (by omega) headFits headResolved
    obtain ⟨next, after, run, swept, nextSize, last⟩ := step middleMirrors (sound.step record)
      (by omega) (fun before other after split =>
        fits (record :: before) other after (by rw [split]; rfl)) tailResolved (by omega)
    refine ⟨next, after, ?_, (runs tail).trans swept, by omega, fun _ => ?_⟩
    · rw [List.foldlM_cons, stepped]
      exact run
    cases records with
    | nil =>
      -- The record is the last one, so it has just written the output.
      cases tailResolved
      cases run
      cases swept
      have output : record.result = .output := headFits.output rfl
      obtain ⟨value, held, found⟩ := middleMirrors .output index (by simp [output])
      cases held
      exact found
    | cons other others =>
      have shifted : index + (record :: other :: others).length - 1 =
          index + 1 + (other :: others).length - 1 := by
        simp only [List.length_cons]
        omega
      rw [shifted]
      exact last (List.cons_ne_nil other others)

/-! ## The walk back keeps the values -/

theorem values_of_accumulate
    {operand : Operand}
    {amount : α}
    {trace after : Trace α}
    (added : accumulate operand amount trace = .ok after) :
    after.values = trace.values := by
  cases operand with
  | record other =>
    obtain ⟨current, -, added⟩ := bind_eq_ok_iff.1 added
    obtain ⟨adjoints, -, added⟩ := bind_eq_ok_iff.1 added
    cases added
    rfl
  | data slot =>
    obtain ⟨current, -, added⟩ := bind_eq_ok_iff.1 added
    obtain ⟨adjoints, -, added⟩ := bind_eq_ok_iff.1 added
    cases added
    rfl

theorem values_of_pull
    {record : PlannedRecord}
    {trace after : Trace α}
    (pulled : pull inputs coordinate index record trace = .ok after) :
    after.values = trace.values := by
  obtain ⟨adjoint, -, pulled⟩ := bind_eq_ok_iff.1 pulled
  split at pulled
  · cases pulled
    rfl
  obtain ⟨left, -, pulled⟩ := bind_eq_ok_iff.1 pulled
  obtain ⟨right, -, pulled⟩ := bind_eq_ok_iff.1 pulled
  obtain ⟨value, -, pulled⟩ := bind_eq_ok_iff.1 pulled
  obtain ⟨middle, leftAdded, pulled⟩ := bind_eq_ok_iff.1 pulled
  have leftKept := values_of_accumulate leftAdded
  split at pulled
  · exact (values_of_accumulate pulled).trans leftKept
  · cases pulled
    exact leftKept

theorem values_of_pullFrom
    {records : List PlannedRecord}
    {trace after : Trace α}
    (walked : pullFrom inputs coordinate index records trace = .ok after) :
    after.values = trace.values := by
  induction records generalizing index after with
  | nil =>
    cases walked
    rfl
  | cons record records step =>
    rw [pullFrom_cons] at walked
    obtain ⟨middle, later, pulled⟩ := bind_eq_ok_iff.1 walked
    exact (values_of_pull pulled).trans (step later)

/-! ## The two runs agree -/

/-- On a valid script both runs succeed from any two workspaces, with the same last value. -/
theorem runs_agree
    {script : Script}
    {plan : Plan}
    (valid : script.validate = .ok ())
    (planned : ofScript script = .ok plan)
    (readable : Readable inputs script.data.length coordinate)
    {cache : Array α}
    (enough : script.cacheSize ≤ cache.size)
    {workspace : Trace α}
    (fits : workspace.Fits plan) :
    ∃ result after trace,
      Script.evalAt script.records inputs coordinate cache = .ok (result, after) ∧
      after.size = cache.size ∧
      plan.sweep inputs coordinate workspace = .ok trace ∧
      trace.Fits plan ∧
      trace.values[script.length - 1]? = some result := by
  obtain ⟨other, plannedAgain, ordered, sameLength, sameData⟩ := ofScript_eq_ok valid
  obtain rfl : plan = other := by
    rw [planned] at plannedAgain
    exact Except.ok.inj plannedAgain
  obtain ⟨nonempty, -, recordsFit⟩ := Script.validate_eq_ok_iff.1 valid
  obtain ⟨records, resolved, whole⟩ := bind_eq_ok_iff.1 planned
  cases whole
  have start : Writers [] 0 [] :=
    ⟨fun _ _ absent => (by cases absent), fun _ absent => (by cases absent)⟩
  have room : 0 + script.records.length ≤ workspace.values.size := by
    rw [fits.values, sameLength, Nat.zero_add]
    exact Nat.le_refl _
  obtain ⟨scratch, values, run, filled, sameSize, last⟩ :=
    (mirrors_nil workspace.values ⟨cache, Arithmetic.zero⟩).records start readable enough
      recordsFit resolved room
  obtain ⟨trace, swept⟩ := sweep_isOk ordered (sameData ▸ readable) fits
  refine ⟨scratch.output, scratch.cache, trace, ?_, sameSize, swept, fits_of_sweep fits swept, ?_⟩
  · rw [Script.evalAt, run]
    rfl
  · rw [sweep_eq fits] at swept
    obtain ⟨found, filledAgain, walked⟩ := bind_eq_ok_iff.1 swept
    obtain rfl : values = found := by
      rw [filled] at filledAgain
      exact Except.ok.inj filledAgain
    have kept : trace.values = values := values_of_pullFrom walked
    rw [kept]
    simpa [Script.length] using last nonempty

/--
A valid script has a plan, and wherever the inputs have an element it has one
result: running its records in place gives the result in every cache that is
large enough, and sweeping its plan leaves the result as the last value in
every workspace that fits.
-/
theorem interpreters_agree
    {script : Script}
    (valid : script.validate = .ok ())
    {inputs : Array (Array α)}
    {coordinate : Nat}
    (readable : Readable inputs script.data.length coordinate) :
    ∃ plan result, ofScript script = .ok plan ∧
      plan.length = script.length ∧ plan.dataLength = script.data.length ∧
      (∀ cache : Array α, script.cacheSize ≤ cache.size →
        ∃ after, Script.evalAt script.records inputs coordinate cache = .ok (result, after) ∧
          after.size = cache.size) ∧
      ∀ workspace : Trace α, workspace.Fits plan →
        ∃ trace, plan.sweep inputs coordinate workspace = .ok trace ∧
          trace.Fits plan ∧
          trace.values[script.length - 1]? = some result := by
  obtain ⟨plan, planned, -, sameLength, sameData⟩ := ofScript_eq_ok valid
  have roomy : script.cacheSize ≤ (zeros α script.cacheSize).size := by simp
  obtain ⟨result, _, reference, evaluated, -, swept, -, last⟩ :=
    runs_agree valid planned readable roomy (Trace.zeros_fits plan)
  refine ⟨plan, result, planned, sameLength, sameData, fun cache enough => ?_,
    fun workspace fits => ?_⟩
  · -- Any cache is compared with the workspace of zeros, and that with the cache of zeros.
    obtain ⟨value, after, trace, run, sameSize, sweptAgain, -, lastAgain⟩ :=
      runs_agree valid planned readable enough (Trace.zeros_fits plan)
    rw [swept] at sweptAgain
    cases sweptAgain
    rw [last] at lastAgain
    cases lastAgain
    exact ⟨after, run, sameSize⟩
  · obtain ⟨value, after, trace, run, -, sweptHere, traceFits, lastHere⟩ :=
      runs_agree valid planned readable roomy fits
    rw [evaluated] at run
    cases run
    exact ⟨trace, sweptHere, traceFits, lastHere⟩

/-- At three and five, a cache and a workspace with remains in them make no difference. -/
theorem interpreters_agree_recycling :
    ∃ plan, ofScript recycling = .ok plan ∧
      (∃ after, Script.evalAt recycling.records #[#[3], #[(5 : Int)]] 0 #[-7, 8, 9] =
        .ok (-126, after)) ∧
      ∃ trace, plan.sweep #[#[3], #[(5 : Int)]] 0
          ⟨#[1, 2, 3, 4], #[5, 6, 7, 8], #[9, 10]⟩ = .ok trace ∧
        trace.values[3]? = some (-126) := by
  have readable : Readable #[#[3], #[(5 : Int)]] recycling.data.length 0 := by
    intro slot inside
    match slot, inside with
    | 0, _ => exact ⟨#[3], rfl, .inl rfl⟩
    | 1, _ => exact ⟨#[5], rfl, .inl rfl⟩
  obtain ⟨plan, result, planned, sameLength, sameData, evaluates, sweeps⟩ :=
    interpreters_agree (show recycling.validate = .ok () from rfl) readable
  obtain ⟨after, evaluated, -⟩ := evaluates #[-7, 8, 9] (by decide)
  obtain ⟨trace, swept, -, last⟩ := sweeps ⟨#[1, 2, 3, 4], #[5, 6, 7, 8], #[9, 10]⟩
    ⟨sameLength.symm, sameLength.symm, sameData.symm⟩
  obtain rfl : result = -126 := by
    cases evaluated
    rfl
  exact ⟨plan, planned, ⟨after, evaluated⟩, trace, swept, last⟩

end Plan

end Elementwise
