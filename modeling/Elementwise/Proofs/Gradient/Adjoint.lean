import Mathlib.Algebra.BigOperators.Group.Finset.Basic
import Mathlib.Algebra.BigOperators.Group.Finset.Piecewise
import Mathlib.Algebra.BigOperators.Ring.Finset
import Mathlib.Tactic.Ring
import Elementwise.Proofs.Action
import Elementwise.Proofs.Element.Integers
import Elementwise.Proofs.Gradient.Forward
import Elementwise.Proofs.Gradient.Sweep

/-!
# The reverse sweep against forward differentiation

In exact arithmetic, the adjoints that a sweep finds are the coefficients by
which the tangent of the last record depends on the tangents of the data and
on those injected at the records.

The invariant of the walk is a sum, the balance.  Each adjoint counts with the
tangent of its record as long as that record is still to be looked at, and
with the injected tangent alone afterwards; the adjoints of the data count
with the tangents of the data.  Passing the adjoint of a record on to its
operands is exactly the rule by which its tangent was formed, so no step
changes the balance.  Before the walk it is the tangent of the last record.
-/

namespace Elementwise

/-- Arithmetic that is carried out exactly in a commutative ring. -/
class ExactArithmetic (α : Type) [CommRing α] [Arithmetic α] : Prop where
  zero_eq : (Arithmetic.zero : α) = 0
  one_eq : (Arithmetic.one : α) = 1
  add_eq : ∀ left right : α, Arithmetic.add left right = left + right
  mul_eq : ∀ left right : α, Arithmetic.mul left right = left * right
  isZero_iff : ∀ element : α, Arithmetic.isZero element = true ↔ element = 0

instance : ExactArithmetic Int where
  zero_eq := rfl
  one_eq := rfl
  add_eq _ _ := rfl
  mul_eq _ _ := rfl
  isZero_iff _ := beq_iff_eq

variable {α : Type} [CommRing α]

/-! ## Weighted sums -/

/-- The sum of amounts, each multiplied by a weight. -/
def weighted (amounts : Array α) (weights : Nat → α) : α :=
  ∑ index ∈ Finset.range amounts.size, amounts.getD index 0 * weights index

theorem weighted_congr
    {amounts : Array α}
    {weights others : Nat → α}
    (same : ∀ index < amounts.size, weights index = others index) :
    weighted amounts weights = weighted amounts others := by
  refine Finset.sum_congr rfl fun index member => ?_
  rw [same index (Finset.mem_range.1 member)]

/-- A single weight of one picks its amount. -/
theorem weighted_unit
    {amounts : Array α}
    {index : Nat}
    {current : α}
    (found : amounts[index]? = some current) :
    weighted amounts (fun other => if other = index then 1 else 0) = current := by
  obtain ⟨inside, -⟩ := Array.getElem?_eq_some_iff.1 found
  have picked : amounts.getD index 0 = current := by
    rw [Array.getD_eq_getD_getElem?, found, Option.getD_some]
  simp only [weighted, mul_ite, mul_one, mul_zero]
  rw [Finset.sum_ite_eq', if_pos (Finset.mem_range.2 inside), picked]

/-- Adding to one amount adds its share to the sum. -/
theorem weighted_set
    {amounts : Array α}
    {index : Nat}
    {current : α}
    (found : amounts[index]? = some current)
    (amount : α)
    (weights : Nat → α) :
    weighted (amounts.setIfInBounds index (current + amount)) weights =
      weighted amounts weights + amount * weights index := by
  obtain ⟨inside, -⟩ := Array.getElem?_eq_some_iff.1 found
  have each : ∀ other : Nat,
      (amounts.setIfInBounds index (current + amount)).getD other 0 * weights other =
        amounts.getD other 0 * weights other +
          if index = other then amount * weights index else 0 := by
    intro other
    simp only [Array.getD_eq_getD_getElem?, Array.getElem?_setIfInBounds]
    by_cases same : index = other
    · subst same
      simp only [inside, if_true, found, Option.getD_some]
      ring
    · simp [same]
  rw [weighted, Array.size_setIfInBounds, Finset.sum_congr rfl fun other _ => each other,
    Finset.sum_add_distrib, Finset.sum_ite_eq, if_pos (Finset.mem_range.2 inside)]
  rfl

/-- A weight that changes changes the sum by its share. -/
theorem weighted_of_eq_off
    {amounts : Array α}
    {index : Nat}
    {current : α}
    (found : amounts[index]? = some current)
    {weights others : Nat → α}
    (same : ∀ other, other ≠ index → weights other = others other) :
    weighted amounts weights =
      weighted amounts others + current * (weights index - others index) := by
  obtain ⟨inside, -⟩ := Array.getElem?_eq_some_iff.1 found
  have each : ∀ other : Nat,
      amounts.getD other 0 * weights other =
        amounts.getD other 0 * others other +
          if index = other then current * (weights index - others index) else 0 := by
    intro other
    by_cases equal : index = other
    · subst equal
      simp only [Array.getD_eq_getD_getElem?, if_true, found, Option.getD_some]
      ring
    · rw [if_neg equal, add_zero, same other (Ne.symm equal)]
  rw [weighted, Finset.sum_congr rfl fun other _ => each other,
    Finset.sum_add_distrib, Finset.sum_ite_eq, if_pos (Finset.mem_range.2 inside)]
  rfl

variable [Arithmetic α]

theorem weighted_zeros
    [ExactArithmetic α]
    (length : Nat)
    (weights : Nat → α) :
    weighted (zeros α length) weights = 0 := by
  refine Finset.sum_eq_zero fun index member => ?_
  have inside : index < length := by simpa using Finset.mem_range.1 member
  rw [Array.getD_eq_getD_getElem?, zeros, Array.getElem?_replicate, if_pos inside,
    Option.getD_some, ExactArithmetic.zero_eq, zero_mul]

/-! ## The values of the records -/

/-- The first entries of an array are the values of the duals of the records. -/
def Holds (index : Nat) (values : Array α) (results : List (Dual α)) : Prop :=
  ∀ other < index, ∃ dual, results[other]? = some dual ∧ values[other]? = some dual.value

variable
    {inputs : Array (Array α)}
    {coordinate dataLength index : Nat}
    {tangents injected : Nat → α}
    {results : List (Dual α)}
    {values : Array α}

/-- What an operand reads is the value of its dual. -/
theorem Operand.value_eq
    (tangents : Nat → α)
    (holds : Holds index values results)
    {operand : Operand}
    {value : α}
    (before : operand.Before dataLength index)
    (read : operand.read values inputs coordinate = .ok value) :
    (operand.dual (.ofData inputs coordinate tangents) results).value = value := by
  cases operand with
  | record other =>
    obtain ⟨dual, found, held⟩ := holds other before
    rw [Operand.read, elementAt_eq_ok_iff, held] at read
    cases read
    rw [Operand.dual, List.getD_eq_getElem?_getD, found, Option.getD_some]
  | data slot =>
    obtain ⟨input, found, got⟩ := bind_eq_ok_iff.1 read
    rw [elementAt_eq_ok_iff] at found
    have same : inputs.getD slot #[] = input := by
      rw [Array.getD_eq_getD_getElem?, found, Option.getD_some]
    simp only [Operand.dual, Duals.ofData, same]
    exact leafElement_of_broadcastGet got

theorem Operand.value?_eq
    (tangents : Nat → α)
    (holds : Holds index values results)
    {operand : Option Operand}
    {value : α}
    (before : ∀ present ∈ operand, present.Before dataLength index)
    (read : Operand.read? values inputs coordinate operand = .ok value) :
    ((operand.map (Operand.dual (.ofData inputs coordinate tangents) results)).getD
      Dual.zero).value = value := by
  cases operand with
  | none =>
    cases read
    rfl
  | some operand => exact value_eq tangents holds (before operand rfl) read

namespace Plan

/-- The duals of the records of a plan, which solve its equations. -/
structure Solves
    (inputs : Array (Array α))
    (coordinate : Nat)
    (tangents injected : Nat → α)
    (index : Nat)
    (records : List PlannedRecord)
    (results : List (Dual α)) : Prop where
  dual : ∀ (offset : Nat) (record : PlannedRecord), records[offset]? = some record →
    results[index + offset]? =
      some (record.dual (.ofData inputs coordinate tangents) results
        (injected (index + offset)))

theorem Solves.head
    {record : PlannedRecord}
    {records : List PlannedRecord}
    (solves : Solves inputs coordinate tangents injected index (record :: records) results) :
    results[index]? =
      some (record.dual (.ofData inputs coordinate tangents) results (injected index)) :=
  solves.dual 0 record rfl

theorem Solves.tail
    {record : PlannedRecord}
    {records : List PlannedRecord}
    (solves : Solves inputs coordinate tangents injected index (record :: records) results) :
    Solves inputs coordinate tangents injected (index + 1) records results := by
  constructor
  intro offset next found
  rw [Nat.add_assoc, Nat.add_comm 1 offset]
  exact solves.dual (offset + 1) next found

theorem Holds.of_valuesFrom
    {records : List PlannedRecord}
    {after : Array α}
    (ordered : OrderedFrom dataLength index records)
    (solves : Solves inputs coordinate tangents injected index records results)
    (holds : Holds index values results)
    (run : valuesFrom inputs coordinate index records values = .ok after) :
    Holds (index + records.length) after results := by
  induction records generalizing index values with
  | nil =>
    cases run
    exact holds
  | cons record records step =>
    obtain ⟨left, leftRead, run⟩ := bind_eq_ok_iff.1 run
    obtain ⟨right, rightRead, run⟩ := bind_eq_ok_iff.1 run
    obtain ⟨written, writes, run⟩ := bind_eq_ok_iff.1 run
    obtain ⟨inside, rfl⟩ := setElement_eq_ok_iff.1 writes
    have leftValue := Operand.value_eq tangents holds ordered.head.left leftRead
    have rightValue :=
      Operand.value?_eq tangents holds ordered.head.right rightRead
    have extended : Holds (index + 1)
        (values.setIfInBounds index (Arithmetic.eval record.opcode left right)) results := by
      intro other below
      by_cases same : index = other
      · subst same
        refine ⟨_, solves.head, ?_⟩
        simp [PlannedRecord.dual, Dual.apply, leftValue, rightValue, inside]
      · rw [Array.getElem?_setIfInBounds_ne same]
        exact holds other (by omega)
    have rest := step ordered.tail solves.tail extended run
    rwa [Nat.add_assoc, Nat.add_comm 1] at rest

/-! ## The balance of the walk -/

/--
What the records and the data owe to the tangent of the last record: records
below an index with their tangents, the others with what was injected at them.
-/
def balance
    (tangents injected : Nat → α)
    (results : List (Dual α))
    (index : Nat)
    (trace : Trace α) : α :=
  weighted trace.adjoints
      (fun other => if other < index then (results.getD other .zero).tangent else injected other) +
    weighted trace.dataAdjoints tangents

variable [ExactArithmetic α]

/-- Adding to the adjoint of an operand adds its share to the balance. -/
theorem balance_of_accumulate
    (inputs : Array (Array α))
    (coordinate : Nat)
    (tangents injected : Nat → α)
    (results : List (Dual α))
    {operand : Operand}
    {amount : α}
    {trace after : Trace α}
    (before : operand.Before dataLength index)
    (added : accumulate operand amount trace = .ok after) :
    balance tangents injected results index after =
        balance tangents injected results index trace +
          amount * (operand.dual (.ofData inputs coordinate tangents) results).tangent ∧
      after.values = trace.values := by
  cases operand with
  | record other =>
    obtain ⟨current, found, added⟩ := bind_eq_ok_iff.1 added
    obtain ⟨adjoints, writes, added⟩ := bind_eq_ok_iff.1 added
    obtain ⟨-, rfl⟩ := setElement_eq_ok_iff.1 writes
    cases added
    have earlier : other < index := before
    refine ⟨?_, rfl⟩
    rw [balance, ExactArithmetic.add_eq, weighted_set (elementAt_eq_ok_iff.1 found),
      if_pos earlier, balance, Operand.dual]
    ring
  | data slot =>
    obtain ⟨current, found, added⟩ := bind_eq_ok_iff.1 added
    obtain ⟨adjoints, writes, added⟩ := bind_eq_ok_iff.1 added
    obtain ⟨-, rfl⟩ := setElement_eq_ok_iff.1 writes
    cases added
    refine ⟨?_, rfl⟩
    rw [balance, ExactArithmetic.add_eq, weighted_set (elementAt_eq_ok_iff.1 found),
      balance, Operand.dual, Duals.ofData]
    ring

omit [ExactArithmetic α] in
/-- Once a record has been looked at, its adjoint counts with the injected tangent. -/
theorem balance_succ
    (tangents injected : Nat → α)
    {trace : Trace α}
    {dual : Dual α}
    {adjoint : α}
    (found : results[index]? = some dual)
    (held : trace.adjoints[index]? = some adjoint) :
    balance tangents injected results (index + 1) trace =
      balance tangents injected results index trace +
        adjoint * (dual.tangent - injected index) := by
  have same : ∀ other, other ≠ index →
      (if other < index + 1 then (results.getD other .zero).tangent else injected other) =
        if other < index then (results.getD other .zero).tangent else injected other := by
    intro other different
    by_cases below : other < index
    · rw [if_pos below, if_pos (Nat.lt_succ_of_lt below)]
    · rw [if_neg below, if_neg (by omega)]
  rw [balance, weighted_of_eq_off held same, if_pos (Nat.lt_succ_self index),
    if_neg (Nat.lt_irrefl index), List.getD_eq_getElem?_getD, found, Option.getD_some, balance]
  ring

/-- Passing the adjoint of a record on to its operands keeps the balance. -/
theorem balance_of_pull
    {record : PlannedRecord}
    {trace after : Trace α}
    (before : record.Before dataLength index)
    (found : results[index]? =
      some (record.dual (.ofData inputs coordinate tangents) results (injected index)))
    (holds : Holds (index + 1) trace.values results)
    (pulled : pull inputs coordinate index record trace = .ok after) :
    balance tangents injected results index after =
        balance tangents injected results (index + 1) trace ∧
      after.values = trace.values := by
  have holdsBelow : Holds index trace.values results :=
    fun other below => holds other (Nat.lt_succ_of_lt below)
  obtain ⟨adjoint, held, pulled⟩ := bind_eq_ok_iff.1 pulled
  have moved := balance_succ tangents injected found
    (elementAt_eq_ok_iff.1 held)
  split at pulled
  next vanishes =>
    cases pulled
    rw [ExactArithmetic.isZero_iff] at vanishes
    refine ⟨?_, rfl⟩
    rw [moved, vanishes, zero_mul, add_zero]
  · obtain ⟨left, leftRead, pulled⟩ := bind_eq_ok_iff.1 pulled
    obtain ⟨right, rightRead, pulled⟩ := bind_eq_ok_iff.1 pulled
    obtain ⟨value, valueRead, pulled⟩ := bind_eq_ok_iff.1 pulled
    rcases slopes : Arithmetic.partials record.opcode left right value with
      ⟨leftPartial, rightPartial⟩
    rw [slopes] at pulled
    obtain ⟨middle, leftAdded, pulled⟩ := bind_eq_ok_iff.1 pulled
    have leftValue :=
      Operand.value_eq tangents holdsBelow before.left leftRead
    have rightValue :=
      Operand.value?_eq tangents holdsBelow before.right rightRead
    have value : Arithmetic.eval record.opcode left right = value := by
      obtain ⟨dual, same, valueHeld⟩ := holds index (Nat.lt_succ_self index)
      rw [found] at same
      cases same
      rw [elementAt_eq_ok_iff, valueHeld] at valueRead
      simpa [PlannedRecord.dual, Dual.apply, leftValue, rightValue] using valueRead
    subst value
    have tangent : (record.dual (.ofData inputs coordinate tangents) results
        (injected index)).tangent = injected index +
          (leftPartial * (record.left.dual (.ofData inputs coordinate tangents) results).tangent +
            rightPartial * ((record.right.map (Operand.dual (.ofData inputs coordinate tangents)
              results)).getD Dual.zero).tangent) := by
      simp [PlannedRecord.dual, Dual.apply, leftValue, rightValue, slopes]
    obtain ⟨afterLeft, leftValues⟩ := balance_of_accumulate inputs coordinate tangents
      injected results before.left leftAdded
    rw [moved, tangent]
    cases second : record.right with
    | none =>
      rw [second] at pulled
      cases pulled
      refine ⟨?_, leftValues⟩
      rw [afterLeft, ExactArithmetic.mul_eq]
      simp only [Option.map_none, Option.getD_none, Dual.zero]
      ring
    | some operand =>
      rw [second] at pulled
      obtain ⟨afterRight, rightValues⟩ := balance_of_accumulate inputs coordinate tangents
        injected results (before.right operand second) pulled
      refine ⟨?_, rightValues.trans leftValues⟩
      rw [afterRight, afterLeft, ExactArithmetic.mul_eq, ExactArithmetic.mul_eq]
      simp only [Option.map_some, Option.getD_some]
      ring

/-- Walking back over records keeps the balance. -/
theorem balance_of_pullFrom
    {records : List PlannedRecord}
    {trace after : Trace α}
    (ordered : OrderedFrom dataLength index records)
    (solves : Solves inputs coordinate tangents injected index records results)
    (holds : Holds (index + records.length) trace.values results)
    (walked : pullFrom inputs coordinate index records trace = .ok after) :
    balance tangents injected results index after =
        balance tangents injected results (index + records.length) trace ∧
      after.values = trace.values := by
  induction records generalizing index after with
  | nil =>
    cases walked
    exact ⟨rfl, rfl⟩
  | cons record records step =>
    have length : index + (record :: records).length = index + 1 + records.length := by
      simp only [List.length_cons]
      omega
    rw [length] at holds ⊢
    rw [pullFrom_cons] at walked
    obtain ⟨middle, later, pulled⟩ := bind_eq_ok_iff.1 walked
    obtain ⟨middleBalance, middleValues⟩ := step ordered.tail solves.tail holds later
    have holdsNext : Holds (index + 1) middle.values results := by
      rw [middleValues]
      exact fun other below => holds other (by omega)
    obtain ⟨afterBalance, afterValues⟩ :=
      balance_of_pull ordered.head solves.head holdsNext pulled
    exact ⟨afterBalance.trans middleBalance, afterValues.trans middleValues⟩

/-- Before the walk, the balance is the tangent of the last record. -/
theorem balance_seeded
    {plan : Plan}
    (nonempty : plan.records ≠ [])
    (values : Array α) :
    balance tangents injected results plan.length (plan.seeded values) =
      (results.getD (plan.length - 1) .zero).tangent := by
  have positive : 0 < plan.length := List.length_pos_iff.2 nonempty
  have last : (zeros α plan.length)[plan.length - 1]? = some 0 := by
    rw [zeros, Array.getElem?_replicate, if_pos (by omega), ExactArithmetic.zero_eq]
  have one : (Arithmetic.one : α) = 0 + 1 := by
    rw [ExactArithmetic.one_eq, zero_add]
  rw [balance, seeded]
  simp only
  rw [one, weighted_set last, weighted_zeros, weighted_zeros, if_pos (by omega)]
  ring

/--
The adjoints that a sweep finds are the coefficients of the tangent of the
last record.
-/
theorem balance_of_sweep
    {script : Script}
    {plan : Plan}
    {workspace trace : Trace α}
    (valid : script.validate = .ok ())
    (planned : ofScript script = .ok plan)
    (fits : workspace.Fits plan)
    (swept : plan.sweep inputs coordinate workspace = .ok trace)
    (tangents injected : Nat → α) :
    weighted trace.adjoints injected + weighted trace.dataAdjoints tangents =
      script.tangent inputs coordinate tangents injected := by
  obtain ⟨plan', planned', ordered, sameLength, sameData⟩ := ofScript_eq_ok valid
  obtain rfl : plan = plan' := by
    rw [planned] at planned'
    exact Except.ok.inj planned'
  obtain ⟨nonempty, -, -⟩ := Script.validate_eq_ok_iff.1 valid
  have positive : 0 < script.records.length := List.length_pos_iff.2 nonempty
  have plannedNonempty : plan.records ≠ [] := by
    rw [← List.length_pos_iff]
    rw [length, Script.length] at sameLength
    omega
  have solves : Solves inputs coordinate tangents injected 0 plan.records
      (script.duals inputs coordinate tangents injected) := by
    constructor
    intro offset record found
    rw [Nat.zero_add]
    exact duals_eq planned inputs coordinate tangents injected found
  rw [sweep_eq fits] at swept
  obtain ⟨values, run, walked⟩ := bind_eq_ok_iff.1 swept
  have holds := Holds.of_valuesFrom ordered.from solves
    (fun _ absent => absurd absent (Nat.not_lt_zero _)) run
  obtain ⟨kept, -⟩ := balance_of_pullFrom ordered.from solves holds walked
  rw [Nat.zero_add] at kept
  have finished : balance tangents injected
      (script.duals inputs coordinate tangents injected) 0 trace =
        weighted trace.adjoints injected + weighted trace.dataAdjoints tangents := by
    rw [balance]
    exact congrArg (· + _) (weighted_congr fun other _ => if_neg (Nat.not_lt_zero other))
  have last : (script.duals inputs coordinate tangents injected).getLast? =
      (script.duals inputs coordinate tangents injected)[plan.length - 1]? := by
    rw [List.getLast?_eq_getElem?, sameLength]
    simp [Script.duals, Script.length]
  rw [← finished, kept]
  refine (balance_seeded plannedNonempty values).trans ?_
  rw [Script.tangent, last, List.getD_eq_getElem?_getD]

/--
The reverse sweep of a valid script is the transpose of its forward
differentiation.  Whatever the inputs and the workspace contain, and whatever
the operations and their local derivatives are: the adjoints of the data slots
give the tangent of the last record for all tangents of the data, and the
adjoint of a record is that tangent when one is injected at the record alone.
The sweep succeeds wherever the inputs have an element.
-/
theorem adjoints_eq_tangents
    {script : Script}
    (valid : script.validate = .ok ())
    (inputs : Array (Array α))
    (coordinate : Nat) :
    ∃ plan, ofScript script = .ok plan ∧
      plan.length = script.length ∧ plan.dataLength = script.data.length ∧
      ∀ workspace : Trace α, workspace.Fits plan →
        (Readable inputs script.data.length coordinate →
          ∃ trace, plan.sweep inputs coordinate workspace = .ok trace) ∧
        ∀ trace, plan.sweep inputs coordinate workspace = .ok trace →
          trace.Fits plan ∧
          (∀ tangents : Nat → α,
            ∑ slot ∈ Finset.range script.data.length,
                trace.dataAdjoints.getD slot 0 * tangents slot =
              script.tangent inputs coordinate tangents fun _ => 0) ∧
          ∀ index < script.length,
            trace.adjoints[index]? =
              some (script.tangent inputs coordinate (fun _ => 0) fun other =>
                if other = index then 1 else 0) := by
  obtain ⟨plan, planned, ordered, sameLength, sameData⟩ := ofScript_eq_ok valid
  refine ⟨plan, planned, sameLength, sameData, fun workspace fits => ⟨fun readable => ?_, ?_⟩⟩
  · rw [← sameData] at readable
    exact sweep_isOk ordered readable fits
  · intro trace swept
    have traceFits := fits_of_sweep fits swept
    have balanced := balance_of_sweep valid planned fits swept
    refine ⟨traceFits, fun tangents => ?_, fun index inside => ?_⟩
    · have none : weighted trace.adjoints (fun _ => 0) = 0 := by
        simp [weighted]
      have data := balanced tangents fun _ => 0
      rw [none, zero_add, weighted, traceFits.dataAdjoints, sameData] at data
      exact data
    · have held : index < trace.adjoints.size := by
        rw [traceFits.adjoints, sameLength]
        exact inside
      have found := Array.getElem?_eq_getElem held
      have none : weighted trace.dataAdjoints (fun _ => 0) = 0 := by
        simp [weighted]
      have unit := balanced (fun _ => 0) fun other => if other = index then 1 else 0
      rw [weighted_unit found, none, add_zero] at unit
      rw [found, unit]

/-- A product whose left factor is overwritten while the right one is still read. -/
def recycling : Script where
  output := ⟨4⟩
  records :=
    [⟨.mul, .cache 0, .data 0, some (.data 0)⟩,
      ⟨.add, .cache 1, .cache 0, some (.data 1)⟩,
      ⟨.neg, .cache 0, .cache 0, none⟩,
      ⟨.mul, .output, .cache 0, some (.cache 1)⟩]
  nodes := [⟨2⟩, ⟨3⟩, ⟨4⟩, ⟨5⟩]
  data := [⟨0⟩, ⟨1⟩]
  cacheSize := 2
  statistics := {}

/-- At three and five, the slope of the last record in the first input is that of its formula. -/
theorem adjoints_eq_tangents_recycling :
    ∃ plan, ofScript recycling = .ok plan ∧
      ∃ trace, plan.sweep #[#[3], #[(5 : Int)]] 0 (.zeros Int plan) = .ok trace ∧
        trace.dataAdjoints.getD 0 0 = -138 ∧ trace.adjoints[0]? = some (-23) := by
  obtain ⟨plan, planned, -, -, sweeps⟩ :=
    adjoints_eq_tangents (show recycling.validate = .ok () from rfl) #[#[3], #[(5 : Int)]] 0
  obtain ⟨succeeds, adjoints⟩ := sweeps (.zeros Int plan) (Trace.zeros_fits plan)
  have readable : Readable #[#[3], #[(5 : Int)]] recycling.data.length 0 := by
    intro slot inside
    match slot, inside with
    | 0, _ => exact ⟨#[3], rfl, .inl rfl⟩
    | 1, _ => exact ⟨#[5], rfl, .inl rfl⟩
  obtain ⟨trace, swept⟩ := succeeds readable
  obtain ⟨-, data, records⟩ := adjoints trace swept
  refine ⟨plan, planned, trace, swept, ?_, ?_⟩
  · have slope : recycling.tangent #[#[3], #[(5 : Int)]] 0 (fun slot => if slot = 0 then 1 else 0)
        (fun _ => 0) = -138 := rfl
    have sum := data fun slot => if slot = 0 then 1 else 0
    have two : recycling.data.length = 2 := rfl
    rw [slope, two] at sum
    simpa [Finset.sum_range_succ] using sum
  · exact records 0 (by decide)

end Plan

end Elementwise
