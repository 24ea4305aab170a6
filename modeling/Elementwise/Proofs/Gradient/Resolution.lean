import Elementwise.Proofs.Gradient.Interpretation
import Elementwise.Proofs.Script.Evaluation
import Elementwise.Proofs.Script.Liveness

/-!
# Plans of compiled scripts

In the plan of a script every slot is replaced by the record that wrote it last.
In a compiled script that is the record of the very node that the operand stands
for, however often the slot was used.  So the plan follows the graph, and the
values that a sweep keeps are those of the nodes.

The writers seen so far answer for every slot with its last writer, which is kept
from record to record.  The values are settled record by record: each is computed
from the final values of earlier ones.
-/

namespace Elementwise

namespace Plan

variable
    {index : Nat}
    {writers : List (Slot × Nat)}
    {records : List Record}

/-! ## The last writers -/

/-- The source of a slot: a data slot is one itself, and any other has its last writer. -/
def Resolves (records : List Record) (index : Nat) : Slot → Operand → Prop
  | .data place, operand => operand = .data place
  | slot, operand => ∃ writer, operand = .record writer ∧
      Script.LastWriter records index slot writer

/-- The writers seen before the record at an index are the last ones of their slots. -/
def Latest (records : List Record) (index : Nat) (writers : List (Slot × Nat)) : Prop :=
  ∀ slot writer, writers.lookup slot = some writer →
    Script.LastWriter records index slot writer

theorem latest_nil : Latest records 0 [] :=
  fun _ _ absent => by cases absent

theorem Latest.step
    (latest : Latest records index writers)
    {record : Record}
    (present : records[index]? = some record) :
    Latest records (index + 1) ((record.result, index) :: writers) := by
  intro slot writer found
  rw [List.lookup_cons] at found
  split at found
  next same =>
    cases found
    rw [eq_of_beq same]
    exact Script.lastWriter_succ present
  next different =>
    refine (latest slot writer found).succ present fun same => ?_
    rw [same, beq_self_eq_true] at different
    cases different

theorem Latest.resolves
    (latest : Latest records index writers)
    {slot : Slot}
    {operand : Operand}
    (resolved : resolve index writers slot = .ok operand) :
    Resolves records index slot operand := by
  cases slot with
  | data place =>
    cases resolved
    rfl
  | cache place =>
    obtain ⟨writer, same, found⟩ := lookup_of_resolve (fun _ => by rintro ⟨⟩) resolved
    exact ⟨writer, same, latest _ _ found⟩
  | output =>
    obtain ⟨writer, same, found⟩ := lookup_of_resolve (fun _ => by rintro ⟨⟩) resolved
    exact ⟨writer, same, latest _ _ found⟩

/-- A planned record applies the operation of its record to the sources of the slots. -/
structure Follows
    (records : List Record)
    (index : Nat)
    (record : Record)
    (planned : PlannedRecord) : Prop where
  opcode : planned.opcode = record.opcode
  left : Resolves records index record.left planned.left
  right : Option.Rel (Resolves records index) record.right planned.right

theorem Latest.follows
    (latest : Latest records index writers)
    {record : Record}
    {planned : PlannedRecord}
    (resolved : resolveRecord index writers record = .ok planned) :
    Follows records index record planned := by
  obtain ⟨opcode, result, leftSlot, rightSlot⟩ := record
  obtain ⟨same, left, right⟩ := parts_of_resolveRecord resolved
  refine ⟨same, latest.resolves left, ?_⟩
  cases rightSlot with
  | none =>
    have absent : none = planned.right := Except.ok.inj right
    rw [← absent]
    exact .none
  | some slot =>
    obtain ⟨operand, resolvedRight, present⟩ := map_eq_ok_iff.1 right
    rw [← present]
    exact .some (latest.resolves resolvedRight)

/-- Every record that is resolved follows the record at its index. -/
theorem Latest.resolveFrom
    {rest : List Record}
    {planned : List PlannedRecord}
    (latest : Latest records index writers)
    (remaining : records.drop index = rest)
    (resolved : resolveFrom index writers rest = .ok planned)
    {offset : Nat}
    {found : PlannedRecord}
    (present : planned[offset]? = some found) :
    ∃ record, records[index + offset]? = some record ∧
      Follows records (index + offset) record found := by
  induction rest generalizing index writers planned offset with
  | nil =>
    cases resolved
    cases present
  | cons record rest step =>
    obtain ⟨head, first, resolved⟩ := bind_eq_ok_iff.1 resolved
    obtain ⟨tail, others, resolved⟩ := bind_eq_ok_iff.1 resolved
    cases resolved
    have here : records[index]? = some record := by
      rw [← List.head?_drop, remaining, List.head?_cons]
    cases offset with
    | zero =>
      cases present
      exact ⟨record, here, latest.follows first⟩
    | succ offset =>
      have behind : records.drop (index + 1) = rest := by
        rw [← List.tail_drop, remaining, List.tail_cons]
      have later := step (latest.step here) behind others present
      rwa [Nat.add_assoc, Nat.add_comm 1 offset] at later

/-- The records of a plan follow those of the script. -/
theorem follows_of_ofScript
    {script : Script}
    {plan : Plan}
    (planned : ofScript script = .ok plan)
    {found : PlannedRecord}
    (present : plan.records[index]? = some found) :
    ∃ record, script.records[index]? = some record ∧
      Follows script.records index record found := by
  obtain ⟨resolved, sources, whole⟩ := bind_eq_ok_iff.1 planned
  cases whole
  simpa using latest_nil.resolveFrom (List.drop_zero) sources present

end Plan

/-! ## The nodes behind the operands -/

namespace Script

variable {arena : Arena} {output : NodeId} {script : Script}

/--
An operand of the record at an index stands for a node: for a leaf as its data slot, and
for any other node as the earlier record that computes it.
-/
def StandsFor (arena : Arena) (script : Script) (index : Nat) (node : NodeId) : Operand → Prop
  | .data place => script.data[place]? = some node ∧ arena.operation? node = some .leaf
  | .record earlier => earlier < index ∧ script.nodes[earlier]? = some node ∧
      arena.operation? node ≠ some .leaf

/-- A planned record applies the operation of a node to operands that stand for its own. -/
def PlannedAs
    (arena : Arena)
    (script : Script)
    (index : Nat)
    (planned : PlannedRecord)
    (node : NodeId) : Prop :=
  ∃ operation left right, arena.operation? node = some operation ∧
    operation.parts? = some (planned.opcode, left, right) ∧
    StandsFor arena script index left planned.left ∧
    Option.Rel (StandsFor arena script index) right planned.right

section

variable
    (ordered : arena.Ordered)
    (proper : ∀ node operation, arena.operation? node = some operation → operation.Proper)
    (compiled : Compiled arena output script)

include proper compiled

/-- The source of a slot that carries a node stands for the node. -/
theorem Compiled.standsFor
    (computed : arena.isLeaf output = false)
    {index : Nat}
    {node : NodeId}
    {slot : Slot}
    {operand : Operand}
    (carries : Carries script.data script.nodes script.records index node slot)
    (resolves : Plan.Resolves script.records index slot operand) :
    StandsFor arena script index node operand := by
  by_cases isData : ∃ place, slot = .data place
  · obtain ⟨place, rfl⟩ := isData
    obtain rfl : operand = .data place := resolves
    have member := List.mem_of_getElem? carries
    rw [compiled.data proper, List.mem_filter] at member
    exact ⟨carries, Arena.isLeaf_iff.1 member.2⟩
  · have notData : ∀ place, slot ≠ .data place := fun place same => isData ⟨place, same⟩
    obtain ⟨writer, rfl, wrote⟩ : ∃ writer, operand = .record writer ∧
        LastWriter script.records index slot writer := by
      cases slot with
      | data place => exact absurd rfl (notData place)
      | cache place => exact resolves
      | output => exact resolves
    obtain ⟨other, left, found⟩ := carries.leftBy_of_ne_data notData
    obtain rfl := wrote.unique left
    have member := List.mem_of_getElem? found
    rw [compiled.nodes proper computed, List.mem_filter] at member
    refine ⟨wrote.before, found, fun isLeaf => ?_⟩
    rw [Arena.isLeaf_iff.2 isLeaf] at member
    cases member.2

include ordered

/-- The plan of a node that is not a leaf follows the graph. -/
theorem Compiled.plannedAs
    (computed : arena.isLeaf output = false)
    {plan : Plan}
    (planned : Plan.ofScript script = .ok plan)
    {index : Nat}
    {found : PlannedRecord}
    {node : NodeId}
    (present : plan.records[index]? = some found)
    (among : script.nodes[index]? = some node) :
    PlannedAs arena script index found node := by
  obtain ⟨record, here, follows⟩ := Plan.follows_of_ofScript planned present
  obtain ⟨operation, left, right, isOperation, parts, carriesLeft, carriesRight⟩ :=
    compiled.faithful ordered proper computed index record node here among
  rw [← follows.opcode] at parts
  refine ⟨operation, left, right, isOperation, parts,
    compiled.standsFor proper computed carriesLeft follows.left, ?_⟩
  obtain ⟨opcode, result, leftSlot, rightSlot⟩ := record
  obtain ⟨opcode, leftOperand, rightOperand⟩ := found
  have rightFollows : Option.Rel (Plan.Resolves script.records index) rightSlot rightOperand :=
    follows.right
  cases carriesRight with
  | none =>
    cases rightFollows
    exact .none
  | some carries =>
    cases rightFollows with
    | some resolves => exact .some (compiled.standsFor proper computed carries resolves)

end

end Script

/-! ## The values of a sweep -/

namespace Plan

variable
    {α : Type}
    [Arithmetic α]
    {inputs : Array (Array α)}
    {coordinate dataLength index : Nat}

/-- The values that were there before the first record stay. -/
theorem agree_valuesFrom
    {records : List PlannedRecord}
    {values after : Array α}
    (done : valuesFrom inputs coordinate index records values = .ok after) :
    Agree index values after := by
  induction records generalizing index values with
  | nil =>
    cases done
    exact ⟨rfl, fun _ _ => rfl⟩
  | cons record records step =>
    obtain ⟨left, -, done⟩ := bind_eq_ok_iff.1 done
    obtain ⟨right, -, done⟩ := bind_eq_ok_iff.1 done
    obtain ⟨written, writes, done⟩ := bind_eq_ok_iff.1 done
    obtain ⟨inside, rfl⟩ := setElement_eq_ok_iff.1 writes
    have later := step done
    refine ⟨by simpa using later.size, fun other before => ?_⟩
    rw [← later.below other (Nat.lt_succ_of_lt before),
      Array.getElem?_setIfInBounds_ne (Nat.ne_of_gt before)]

/-- A record applies its operation to what its operands read in the end. -/
theorem getElem?_valuesFrom
    {records : List PlannedRecord}
    {values after : Array α}
    (ordered : OrderedFrom dataLength index records)
    (done : valuesFrom inputs coordinate index records values = .ok after)
    {offset : Nat}
    {record : PlannedRecord}
    (present : records[offset]? = some record) :
    ∃ left right, record.left.read after inputs coordinate = .ok left ∧
      Operand.read? after inputs coordinate record.right = .ok right ∧
      after[index + offset]? = some (Arithmetic.eval record.opcode left right) := by
  induction records generalizing index values offset with
  | nil => cases present
  | cons first records step =>
    have whole := agree_valuesFrom done
    obtain ⟨left, leftRead, done⟩ := bind_eq_ok_iff.1 done
    obtain ⟨right, rightRead, done⟩ := bind_eq_ok_iff.1 done
    obtain ⟨written, writes, done⟩ := bind_eq_ok_iff.1 done
    obtain ⟨inside, rfl⟩ := setElement_eq_ok_iff.1 writes
    cases offset with
    | zero =>
      cases present
      rw [Operand.read_eq_of_agree whole ordered.head.left] at leftRead
      rw [Operand.read?_eq_of_agree whole ordered.head.right] at rightRead
      refine ⟨left, right, leftRead, rightRead, ?_⟩
      rw [Nat.add_zero, ← (agree_valuesFrom done).below index (Nat.lt_succ_self index),
        Array.getElem?_setIfInBounds_self_of_lt inside]
    | succ offset =>
      have later := step ordered.tail done present
      rwa [Nat.add_assoc, Nat.add_comm 1 offset] at later

/-- The values of a sweep are computed from one another, record by record. -/
theorem getElem?_sweep
    {plan : Plan}
    {workspace trace : Trace α}
    (ordered : plan.Ordered)
    (fits : workspace.Fits plan)
    (swept : plan.sweep inputs coordinate workspace = .ok trace)
    {record : PlannedRecord}
    (present : plan.records[index]? = some record) :
    ∃ left right, record.left.read trace.values inputs coordinate = .ok left ∧
      Operand.read? trace.values inputs coordinate record.right = .ok right ∧
      trace.values[index]? = some (Arithmetic.eval record.opcode left right) := by
  rw [sweep_eq fits] at swept
  obtain ⟨values, run, walked⟩ := bind_eq_ok_iff.1 swept
  have kept : trace.values = values := values_of_pullFrom walked
  rw [kept]
  simpa using getElem?_valuesFrom ordered.from run present

end Plan

namespace Script

variable
    {α : Type}
    [Arithmetic α]
    {arena : Arena}
    {output : NodeId}
    {script : Script}
    {leaves : NodeId → Array α}
    {coordinate index : Nat}
    {values : Array α}

/-- An operand that stands for a node reads its value if all earlier records have theirs. -/
theorem StandsFor.read
    {node : NodeId}
    {operand : Operand}
    (standsFor : StandsFor arena script index node operand)
    (covers : ∀ leaf ∈ script.data, Covers (leaves leaf) coordinate)
    (earlier : ∀ other < index, ∀ node, script.nodes[other]? = some node →
      values[other]? = some (arena.elementOf leaves coordinate node)) :
    operand.read values (script.data.map leaves).toArray coordinate =
      .ok (arena.elementOf leaves coordinate node) := by
  cases operand with
  | data place =>
    obtain ⟨held, isLeaf⟩ := standsFor
    have input : elementAt (script.data.map leaves).toArray place = .ok (leaves node) := by
      rw [elementAt_eq_ok_iff]
      simp [held]
    rw [Operand.read, input, Arena.elementOf_leaf isLeaf]
    exact broadcastGet_eq_ok (covers node (List.mem_of_getElem? held))
  | record other =>
    obtain ⟨before, found, -⟩ := standsFor
    exact elementAt_eq_ok_iff.2 (earlier other before node found)

/-- A sweep over the plan of a node that is not a leaf finds the value of every node. -/
theorem Compiled.sweep_values
    (ordered : arena.Ordered)
    (proper : ∀ node operation, arena.operation? node = some operation → operation.Proper)
    (compiled : Compiled arena output script)
    (computed : arena.isLeaf output = false)
    {plan : Plan}
    (planned : Plan.ofScript script = .ok plan)
    (covers : ∀ leaf ∈ script.data, Covers (leaves leaf) coordinate)
    {workspace trace : Trace α}
    (fits : workspace.Fits plan)
    (swept : plan.sweep (script.data.map leaves).toArray coordinate workspace = .ok trace)
    {node : NodeId}
    (among : script.nodes[index]? = some node) :
    trace.values[index]? = some (arena.elementOf leaves coordinate node) := by
  have valid := compiled.validate proper
  obtain ⟨other, plannedAgain, planOrdered, sameLength, -⟩ := Plan.ofScript_eq_ok valid
  obtain rfl : plan = other := Except.ok.inj (planned.symm.trans plannedAgain)
  induction index using Nat.strong_induction_on generalizing node with
  | _ index earlier =>
    have inside : index < plan.records.length := by
      rw [← Plan.length, sameLength, length, ← (validate_eq_ok_iff.1 valid).2.1]
      exact (List.getElem?_eq_some_iff.1 among).1
    have present := List.getElem?_eq_getElem inside
    obtain ⟨operation, left, right, isOperation, parts, standsLeft, standsRight⟩ :=
      compiled.plannedAs ordered proper computed planned present among
    obtain ⟨leftValue, rightValue, leftRead, rightRead, value⟩ :=
      Plan.getElem?_sweep planOrdered fits swept present
    rw [standsLeft.read covers earlier] at leftRead
    cases leftRead
    rw [value, Arena.elementOf_parts ordered isOperation parts]
    generalize plan.records[index].right = rightOperand at standsRight rightRead
    cases standsRight with
    | none =>
      cases rightRead
      rfl
    | some stands =>
      rw [Operand.read?, stands.read covers earlier] at rightRead
      cases rightRead
      rfl

/-- A sweep over the plan of a leaf copies its value. -/
theorem Compiled.sweep_copy
    (proper : ∀ node operation, arena.operation? node = some operation → operation.Proper)
    (compiled : Compiled arena output script)
    (isLeaf : arena.operation? output = some .leaf)
    {plan : Plan}
    (planned : Plan.ofScript script = .ok plan)
    (covers : Covers (leaves output) coordinate)
    {workspace trace : Trace α}
    (fits : workspace.Fits plan)
    (swept : plan.sweep (script.data.map leaves).toArray coordinate workspace = .ok trace) :
    trace.values[0]? =
      some (Arithmetic.eval .copy (arena.elementOf leaves coordinate output) Arithmetic.zero) := by
  obtain ⟨records, -, data, -⟩ := compiled.eq_copy isLeaf
  obtain ⟨other, plannedAgain, ordered, -⟩ := Plan.ofScript_eq_ok (compiled.validate proper)
  obtain rfl : plan = other := Except.ok.inj (planned.symm.trans plannedAgain)
  have copy : plan.records = [⟨.copy, .data 0, none⟩] := by
    rw [Plan.ofScript, records] at planned
    cases planned
    rfl
  obtain ⟨left, right, leftRead, rightRead, value⟩ :=
    Plan.getElem?_sweep ordered fits swept (by rw [copy, List.getElem?_cons_zero])
  have element : broadcastGet (leaves output) coordinate = .ok left := by
    rw [data] at leftRead
    exact leftRead
  rw [broadcastGet_eq_ok covers] at element
  cases element
  cases rightRead
  rw [value, Arena.elementOf_leaf isLeaf]

end Script

end Elementwise
