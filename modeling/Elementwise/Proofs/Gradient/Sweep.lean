import Elementwise.Gradient.Sweep
import Elementwise.Proofs.Action
import Elementwise.Proofs.Gradient.Plan
import Elementwise.Proofs.Script.Evaluation

/-!
# The course of a reverse sweep

A sweep over a plan in order succeeds wherever the inputs have an element, and
what it finds does not depend on what its workspace contained: every value is
written before it is read, and all adjoints start over.
-/

namespace Elementwise

variable {α : Type} [Arithmetic α]

/-- A workspace of the right size for a plan. -/
structure Trace.Fits (trace : Trace α) (plan : Plan) : Prop where
  values : trace.values.size = plan.length
  adjoints : trace.adjoints.size = plan.length
  dataAdjoints : trace.dataAdjoints.size = plan.dataLength

theorem Trace.zeros_fits (plan : Plan) : (Trace.zeros α plan).Fits plan := by
  constructor <;> simp [Trace.zeros]

/-- Inputs that have an element for a coordinate in each of a number of data slots. -/
def Readable (inputs : Array (Array α)) (dataLength coordinate : Nat) : Prop :=
  ∀ slot < dataLength, ∃ values, inputs[slot]? = some values ∧ Covers values coordinate

/-- Arrays of one size that agree below an index. -/
structure Agree (index : Nat) (values others : Array α) : Prop where
  size : values.size = others.size
  below : ∀ other < index, values[other]? = others[other]?

omit [Arithmetic α] in
theorem Agree.set
    {index : Nat}
    {values others : Array α}
    (agree : Agree index values others)
    (value : α) :
    Agree (index + 1) (values.setIfInBounds index value)
      (others.setIfInBounds index value) := by
  refine ⟨by simpa using agree.size, fun other inside => ?_⟩
  rw [Array.getElem?_setIfInBounds, Array.getElem?_setIfInBounds, agree.size]
  by_cases same : index = other
  · simp [same]
  · rw [if_neg same, if_neg same]
    exact agree.below other (by omega)

omit [Arithmetic α] in
/-- Arrays that agree everywhere are the same. -/
theorem Agree.eq
    {values others : Array α}
    (agree : Agree values.size values others) :
    values = others := by
  refine Array.ext_getElem? fun index => ?_
  by_cases inside : index < values.size
  · exact agree.below index inside
  · rw [Array.getElem?_eq_none (by omega),
      Array.getElem?_eq_none (by rw [← agree.size]; omega)]

namespace Operand

variable
    {inputs : Array (Array α)}
    {coordinate dataLength index : Nat}
    {values others : Array α}

omit [Arithmetic α] in
/-- What an operand reads is settled by the records before. -/
theorem read_eq_of_agree
    (agree : Agree index values others)
    {operand : Operand}
    (before : operand.Before dataLength index) :
    operand.read values inputs coordinate = operand.read others inputs coordinate := by
  cases operand with
  | record other =>
    have same := agree.below other before
    rw [read, read, elementAt, elementAt, same]
  | data slot => rfl

theorem read?_eq_of_agree
    (agree : Agree index values others)
    {operand : Option Operand}
    (before : ∀ present ∈ operand, present.Before dataLength index) :
    read? values inputs coordinate operand = read? others inputs coordinate operand := by
  cases operand with
  | none => rfl
  | some operand => exact read_eq_of_agree agree (before operand rfl)

theorem read_isOk
    (readable : Readable inputs dataLength coordinate)
    (filled : index ≤ values.size)
    {operand : Operand}
    (before : operand.Before dataLength index) :
    ∃ value, operand.read values inputs coordinate = .ok value := by
  cases operand with
  | record other =>
    have inside : other < values.size := Nat.lt_of_lt_of_le before filled
    exact ⟨values[other], elementAt_eq_ok_iff.2 (Array.getElem?_eq_getElem inside)⟩
  | data slot =>
    obtain ⟨input, held, covers⟩ := readable slot before
    refine ⟨leafElement input coordinate, ?_⟩
    rw [read, elementAt_eq_ok_iff.2 held]
    exact broadcastGet_eq_ok covers

theorem read?_isOk
    (readable : Readable inputs dataLength coordinate)
    (filled : index ≤ values.size)
    {operand : Option Operand}
    (before : ∀ present ∈ operand, present.Before dataLength index) :
    ∃ value, read? values inputs coordinate operand = .ok value := by
  cases operand with
  | none => exact ⟨Arithmetic.zero, rfl⟩
  | some operand => exact read_isOk readable filled (before operand rfl)

end Operand

namespace Plan

variable
    {inputs : Array (Array α)}
    {coordinate dataLength : Nat}

/-! ## The forward pass -/

/-- Records that read data slots and earlier records only, the first with a given index. -/
def OrderedFrom (dataLength index : Nat) (records : List PlannedRecord) : Prop :=
  ∀ (offset : Nat) (record : PlannedRecord), records[offset]? = some record →
    record.Before dataLength (index + offset)

theorem Ordered.from {plan : Plan} (ordered : plan.Ordered) :
    OrderedFrom plan.dataLength 0 plan.records := by
  intro offset record found
  rw [Nat.zero_add]
  exact ordered offset record found

theorem OrderedFrom.head
    {index : Nat}
    {record : PlannedRecord}
    {records : List PlannedRecord}
    (ordered : OrderedFrom dataLength index (record :: records)) :
    record.Before dataLength index :=
  ordered 0 record rfl

theorem OrderedFrom.tail
    {index : Nat}
    {record : PlannedRecord}
    {records : List PlannedRecord}
    (ordered : OrderedFrom dataLength index (record :: records)) :
    OrderedFrom dataLength (index + 1) records := by
  intro offset next found
  rw [Nat.add_assoc, Nat.add_comm 1 offset]
  exact ordered (offset + 1) next found

theorem valuesFrom_isOk
    (readable : Readable inputs dataLength coordinate)
    {index : Nat}
    {records : List PlannedRecord}
    (values : Array α)
    (ordered : OrderedFrom dataLength index records)
    (enough : index + records.length ≤ values.size) :
    ∃ after, valuesFrom inputs coordinate index records values = .ok after := by
  induction records generalizing index values with
  | nil => exact ⟨values, rfl⟩
  | cons record records step =>
    simp only [List.length_cons] at enough
    have filled : index ≤ values.size := by omega
    obtain ⟨left, leftRead⟩ := Operand.read_isOk readable filled ordered.head.left
    obtain ⟨right, rightRead⟩ := Operand.read?_isOk readable filled ordered.head.right
    have inside : index < values.size := by omega
    simp only [valuesFrom, leftRead, rightRead, bind, Except.bind, setElement, inside, if_true]
    exact step _ ordered.tail (by simp; omega)

theorem size_of_valuesFrom
    {index : Nat}
    {records : List PlannedRecord}
    {values after : Array α}
    (done : valuesFrom inputs coordinate index records values = .ok after) :
    after.size = values.size := by
  induction records generalizing index values with
  | nil =>
    cases done
    rfl
  | cons record records step =>
    obtain ⟨left, -, done⟩ := bind_eq_ok_iff.1 done
    obtain ⟨right, -, done⟩ := bind_eq_ok_iff.1 done
    obtain ⟨written, writes, done⟩ := bind_eq_ok_iff.1 done
    obtain ⟨-, rfl⟩ := setElement_eq_ok_iff.1 writes
    simpa using step done

/-- What the arrays contain from the first record on makes no difference. -/
theorem valuesFrom_eq_of_agree
    (inputs : Array (Array α))
    (coordinate : Nat)
    {index : Nat}
    {records : List PlannedRecord}
    {values others : Array α}
    (ordered : OrderedFrom dataLength index records)
    (agree : Agree index values others)
    (filled : values.size = index + records.length) :
    valuesFrom inputs coordinate index records values =
      valuesFrom inputs coordinate index records others := by
  induction records generalizing index values others with
  | nil =>
    simp only [List.length_nil, Nat.add_zero] at filled
    rw [← filled] at agree
    rw [agree.eq]
  | cons record records step =>
    rw [valuesFrom, valuesFrom, Operand.read_eq_of_agree agree ordered.head.left,
      Operand.read?_eq_of_agree agree ordered.head.right]
    refine bind_congr fun left => bind_congr fun right => ?_
    have inside : index < values.size := by
      simp only [List.length_cons] at filled
      omega
    have insideOthers : index < others.size := by
      rw [← agree.size]
      exact inside
    simp only [setElement, inside, insideOthers, if_true, bind, Except.bind]
    refine step ordered.tail (agree.set _) ?_
    simp only [List.length_cons] at filled
    simp
    omega

/-! ## The walk backwards -/

/-- Seeding leaves nothing of the adjoints that were in the workspace. -/
theorem seed_eq_ok
    {plan : Plan}
    {trace : Trace α}
    (fits : trace.Fits plan) :
    plan.seed trace = .ok
      { values := trace.values
        adjoints := (zeros α plan.length).setIfInBounds (plan.length - 1) Arithmetic.one
        dataAdjoints := zeros α plan.dataLength } := by
  have adjoints : (trace.adjoints.map fun _ => (Arithmetic.zero : α)) = zeros α plan.length := by
    rw [Array.map_const', fits.adjoints, zeros]
  have dataAdjoints :
      (trace.dataAdjoints.map fun _ => (Arithmetic.zero : α)) = zeros α plan.dataLength := by
    rw [Array.map_const', fits.dataAdjoints, zeros]
  by_cases empty : plan.records = []
  · have short : plan.length = 0 := by simp [length, empty]
    simp only [seed, empty, List.isEmpty_nil, if_true, adjoints, dataAdjoints, short]
    rfl
  · have positive : 0 < plan.length := List.length_pos_iff.2 empty
    have inside : plan.length - 1 < (zeros α plan.length).size := by
      rw [size_zeros]
      omega
    simp only [seed, List.isEmpty_iff, empty, if_false, adjoints, dataAdjoints, setElement,
      inside, if_true]
    rfl

/-- Adding to an adjoint keeps the sizes of the workspace. -/
theorem fits_of_accumulate
    {plan : Plan}
    {operand : Operand}
    {amount : α}
    {trace after : Trace α}
    (fits : trace.Fits plan)
    (added : accumulate operand amount trace = .ok after) :
    after.Fits plan := by
  cases operand with
  | record other =>
    obtain ⟨current, -, added⟩ := bind_eq_ok_iff.1 added
    obtain ⟨adjoints, writes, added⟩ := bind_eq_ok_iff.1 added
    obtain ⟨-, rfl⟩ := setElement_eq_ok_iff.1 writes
    cases added
    exact ⟨fits.values, by simpa using fits.adjoints, fits.dataAdjoints⟩
  | data slot =>
    obtain ⟨current, -, added⟩ := bind_eq_ok_iff.1 added
    obtain ⟨adjoints, writes, added⟩ := bind_eq_ok_iff.1 added
    obtain ⟨-, rfl⟩ := setElement_eq_ok_iff.1 writes
    cases added
    exact ⟨fits.values, fits.adjoints, by simpa using fits.dataAdjoints⟩

theorem accumulate_isOk
    {plan : Plan}
    {index : Nat}
    {operand : Operand}
    {trace : Trace α}
    (fits : trace.Fits plan)
    (before : operand.Before plan.dataLength index)
    (inside : index < plan.length)
    (amount : α) :
    ∃ after, accumulate operand amount trace = .ok after := by
  cases operand with
  | record other =>
    have earlier : other < index := before
    have held : other < trace.adjoints.size := by
      rw [fits.adjoints]
      omega
    have found := elementAt_eq_ok_iff.2 (Array.getElem?_eq_getElem held)
    simp only [accumulate, found, setElement, held, if_true, bind, Except.bind, pure, Except.pure]
    exact ⟨_, rfl⟩
  | data slot =>
    have held : slot < trace.dataAdjoints.size := by
      rw [fits.dataAdjoints]
      exact before
    have found := elementAt_eq_ok_iff.2 (Array.getElem?_eq_getElem held)
    simp only [accumulate, found, setElement, held, if_true, bind, Except.bind, pure, Except.pure]
    exact ⟨_, rfl⟩

/-- Looking at a record keeps the sizes of the workspace. -/
theorem fits_of_pull
    {plan : Plan}
    {index : Nat}
    {record : PlannedRecord}
    {trace after : Trace α}
    (fits : trace.Fits plan)
    (pulled : pull inputs coordinate index record trace = .ok after) :
    after.Fits plan := by
  obtain ⟨adjoint, -, pulled⟩ := bind_eq_ok_iff.1 pulled
  split at pulled
  · cases pulled
    exact fits
  obtain ⟨left, -, pulled⟩ := bind_eq_ok_iff.1 pulled
  obtain ⟨right, -, pulled⟩ := bind_eq_ok_iff.1 pulled
  obtain ⟨value, -, pulled⟩ := bind_eq_ok_iff.1 pulled
  obtain ⟨middle, leftAdded, pulled⟩ := bind_eq_ok_iff.1 pulled
  have middleFits := fits_of_accumulate fits leftAdded
  split at pulled
  · exact fits_of_accumulate middleFits pulled
  · cases pulled
    exact middleFits

theorem pull_isOk
    {plan : Plan}
    {index : Nat}
    {record : PlannedRecord}
    {trace : Trace α}
    (readable : Readable inputs plan.dataLength coordinate)
    (fits : trace.Fits plan)
    (before : record.Before plan.dataLength index)
    (inside : index < plan.length) :
    ∃ after, pull inputs coordinate index record trace = .ok after := by
  have adjointHeld : index < trace.adjoints.size := by
    rw [fits.adjoints]
    exact inside
  have valueHeld : index < trace.values.size := by
    rw [fits.values]
    exact inside
  have adjoint := elementAt_eq_ok_iff.2 (Array.getElem?_eq_getElem adjointHeld)
  have value := elementAt_eq_ok_iff.2 (Array.getElem?_eq_getElem valueHeld)
  obtain ⟨left, leftRead⟩ := Operand.read_isOk readable (Nat.le_of_lt valueHeld) before.left
  obtain ⟨right, rightRead⟩ := Operand.read?_isOk readable (Nat.le_of_lt valueHeld) before.right
  rw [pull, adjoint]
  simp only [bind, Except.bind]
  split
  · exact ⟨trace, rfl⟩
  simp only [leftRead, rightRead, value]
  obtain ⟨middle, leftAdded⟩ := accumulate_isOk fits before.left inside
    (Arithmetic.mul (Arithmetic.partials record.opcode left right trace.values[index]).1
      trace.adjoints[index])
  rw [leftAdded]
  cases second : record.right with
  | none => exact ⟨middle, rfl⟩
  | some operand =>
    exact accumulate_isOk (fits_of_accumulate fits leftAdded) (before.right operand second)
      inside _

/-- Looking at records, the first of which has a given index, with the last one first. -/
def pullFrom
    (inputs : Array (Array α))
    (coordinate index : Nat)
    (records : List PlannedRecord)
    (trace : Trace α) : Except Fault (Trace α) :=
  (records.zipIdx index).foldrM
    (fun (record, index) trace => pull inputs coordinate index record trace) trace

theorem pullFrom_cons
    (index : Nat)
    (record : PlannedRecord)
    (records : List PlannedRecord)
    (trace : Trace α) :
    pullFrom inputs coordinate index (record :: records) trace =
      pullFrom inputs coordinate (index + 1) records trace >>=
        pull inputs coordinate index record := by
  rw [pullFrom, List.zipIdx_cons, List.foldrM_cons]
  rfl

theorem fits_of_pullFrom
    {plan : Plan}
    {index : Nat}
    {records : List PlannedRecord}
    {trace after : Trace α}
    (fits : trace.Fits plan)
    (walked : pullFrom inputs coordinate index records trace = .ok after) :
    after.Fits plan := by
  induction records generalizing index after with
  | nil =>
    cases walked
    exact fits
  | cons record records step =>
    rw [pullFrom_cons] at walked
    obtain ⟨middle, later, pulled⟩ := bind_eq_ok_iff.1 walked
    exact fits_of_pull (step later) pulled

theorem pullFrom_isOk
    {plan : Plan}
    {index : Nat}
    {records : List PlannedRecord}
    {trace : Trace α}
    (readable : Readable inputs plan.dataLength coordinate)
    (fits : trace.Fits plan)
    (ordered : OrderedFrom plan.dataLength index records)
    (inside : index + records.length ≤ plan.length) :
    ∃ after, pullFrom inputs coordinate index records trace = .ok after := by
  induction records generalizing index with
  | nil => exact ⟨trace, rfl⟩
  | cons record records step =>
    simp only [List.length_cons] at inside
    obtain ⟨middle, later⟩ := step ordered.tail (by omega)
    rw [pullFrom_cons, later]
    exact pull_isOk readable (fits_of_pullFrom fits later) ordered.head (by omega)

/-! ## The whole sweep -/

/-- The trace from which the walk backwards starts, once the values are known. -/
def seeded (plan : Plan) (values : Array α) : Trace α where
  values := values
  adjoints := (zeros α plan.length).setIfInBounds (plan.length - 1) Arithmetic.one
  dataAdjoints := zeros α plan.dataLength

theorem seeded_fits
    {plan : Plan}
    {values : Array α}
    (filled : values.size = plan.length) :
    (plan.seeded values).Fits plan :=
  ⟨filled, by simp [seeded], by simp [seeded]⟩

/-- A sweep computes all values and walks back over all records. -/
theorem sweep_eq
    {plan : Plan}
    {workspace : Trace α}
    (fits : workspace.Fits plan) :
    plan.sweep inputs coordinate workspace =
      valuesFrom inputs coordinate 0 plan.records workspace.values >>= fun values =>
        pullFrom inputs coordinate 0 plan.records (plan.seeded values) := by
  rw [sweep]
  cases run : valuesFrom inputs coordinate 0 plan.records workspace.values with
  | error reason => rfl
  | ok values =>
    have filled : Trace.Fits { workspace with values := values } plan :=
      ⟨(size_of_valuesFrom run).trans fits.values, fits.adjoints, fits.dataAdjoints⟩
    simp only [bind, Except.bind, seed_eq_ok filled]
    rfl

/-- A sweep keeps the sizes of its workspace. -/
theorem fits_of_sweep
    {plan : Plan}
    {workspace trace : Trace α}
    (fits : workspace.Fits plan)
    (swept : plan.sweep inputs coordinate workspace = .ok trace) :
    trace.Fits plan := by
  rw [sweep_eq fits] at swept
  obtain ⟨values, run, walked⟩ := bind_eq_ok_iff.1 swept
  exact fits_of_pullFrom (seeded_fits ((size_of_valuesFrom run).trans fits.values)) walked

/-- A sweep succeeds wherever the inputs have an element. -/
theorem sweep_isOk
    {plan : Plan}
    {workspace : Trace α}
    (ordered : plan.Ordered)
    (readable : Readable inputs plan.dataLength coordinate)
    (fits : workspace.Fits plan) :
    ∃ trace, plan.sweep inputs coordinate workspace = .ok trace := by
  have all : 0 + plan.records.length ≤ plan.length := by
    rw [Nat.zero_add]
    exact Nat.le_refl _
  obtain ⟨values, run⟩ := valuesFrom_isOk readable workspace.values ordered.from
    (by rw [fits.values]; exact all)
  rw [sweep_eq fits, run]
  exact pullFrom_isOk readable (seeded_fits ((size_of_valuesFrom run).trans fits.values))
    ordered.from all

/-- A sweep does not depend on what its workspace contained. -/
theorem sweep_eq_of_fits
    {plan : Plan}
    {workspace other : Trace α}
    (ordered : plan.Ordered)
    (fits : workspace.Fits plan)
    (otherFits : other.Fits plan) :
    plan.sweep inputs coordinate workspace = plan.sweep inputs coordinate other := by
  have same := valuesFrom_eq_of_agree inputs coordinate ordered.from
    ⟨fits.values.trans otherFits.values.symm, fun _ absent => absurd absent (Nat.not_lt_zero _)⟩
    (by rw [fits.values, Nat.zero_add]; rfl)
  rw [sweep_eq fits, sweep_eq otherFits, same]

end Plan

end Elementwise
