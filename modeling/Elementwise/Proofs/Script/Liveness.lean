import Mathlib.Data.List.ReduceOption
import Mathlib.Data.Finset.Lattice.Fold
import Mathlib.Order.Lattice.Nat
import Elementwise.Proofs.Script.Placement

/-!
# How long results are kept

The result of a record is live at a record if it was written before and is read
there or later.  A compilation keeps live results in cache slots and no others:
each record but the last takes the first slot that holds no live result.  So
there are never more slots than results that are live at once and the one that
is written beside them.

The invariant is that the slots in use hold exactly the results that the nodes
still to be placed read, each in one slot.
-/

namespace Elementwise

namespace Arena

variable {arena : Arena}

/-- Every node of an order but the last is read by one behind it. -/
def ReadLater (arena : Arena) (order : List NodeId) : Prop :=
  ∀ before node rest, order = before ++ node :: rest → rest ≠ [] →
    node ∈ rest.flatMap arena.operands

/-- In the order of computation, every node but the output is read later. -/
theorem readLater_postOrder
    (ordered : arena.Ordered)
    (output : NodeId) :
    arena.ReadLater (arena.postOrder [] output).reverse := by
  intro before node rest split more
  have member : node ∈ (arena.postOrder [] output).reverse := by simp [split]
  have last := arena.getLast?_postOrder ordered output
  have nodup : (before ++ node :: rest).Nodup := split ▸ nodup_postOrder ordered output
  have different : node ≠ output := by
    rintro rfl
    rw [split, List.getLast?_append_of_ne_nil _ (List.cons_ne_nil _ _),
      List.getLast?_cons_of_ne_nil more] at last
    exact (List.nodup_cons.1 (List.nodup_append.1 nodup).2.1).1 (List.mem_of_getLast? last)
  rw [List.mem_reverse, mem_postOrder_nil_iff ordered] at member
  obtain ⟨user, depends, reads⟩ := (Relation.ReflTransGen.cases_tail member).resolve_left
    different
  have among : user ∈ before ++ node :: rest := by
    rw [← split, List.mem_reverse]
    exact (mem_postOrder_nil_iff ordered).2 depends
  refine List.mem_flatMap.2 ⟨user, ?_, reads⟩
  rcases List.mem_append.1 among with earlier | among
  · -- an earlier user would have the node before itself
    obtain ⟨first, second, rfl⟩ := List.append_of_mem earlier
    rw [List.append_assoc, List.cons_append] at split
    have before := operands_postOrder ordered split node reads
    have twice := (List.nodup_append.1 nodup).2.2 node (List.mem_append_left _ before)
    exact absurd rfl (twice node List.mem_cons_self)
  · rcases List.mem_cons.1 among with rfl | later
    · exact absurd (ordered user user reads) (Nat.lt_irrefl _)
    · exact later

end Arena

namespace Script

variable {arena : Arena}

/-- The nodes whose results were written before a record and are read there or later. -/
def live (arena : Arena) (nodes : List NodeId) (index : Nat) : List NodeId :=
  (nodes.take index).filter ((nodes.drop index).flatMap arena.operands).contains

/-- The record that wrote a slot last before the record at an index is run. -/
structure LastWriter
    (records : List Record)
    (index : Nat)
    (slot : Slot)
    (writer : Nat) : Prop where
  before : writer < index
  writes : ∃ record, records[writer]? = some record ∧ record.result = slot
  last : ∀ (later : Nat) (record : Record), writer < later → later < index →
    records[later]? = some record → record.result ≠ slot

/-- When the record at an index is run, a slot still has the result of a node. -/
def LeftBy
    (records : List Record)
    (nodes : List NodeId)
    (index : Nat)
    (slot : Slot)
    (node : NodeId) : Prop :=
  ∃ writer, LastWriter records index slot writer ∧ nodes[writer]? = some node

/-- When the record at an index is run, a cache slot has a result that is live there. -/
def HoldsLive
    (arena : Arena)
    (nodes : List NodeId)
    (records : List Record)
    (index slot : Nat) : Prop :=
  ∃ node ∈ live arena nodes index, LeftBy records nodes index (.cache slot) node

/-- The record at an index reads the result of a node. -/
def Reads (records : List Record) (nodes : List NodeId) (index : Nat) (node : NodeId) : Prop :=
  ∃ record slot, records[index]? = some record ∧ slot ∈ record.operands ∧
    LeftBy records nodes index slot node

theorem mem_live_iff
    {nodes : List NodeId}
    {index : Nat}
    {node : NodeId} :
    node ∈ live arena nodes index ↔
      node ∈ nodes.take index ∧ node ∈ (nodes.drop index).flatMap arena.operands := by
  rw [live, List.mem_filter, List.contains_iff_mem]

section

variable
    {nodes : List NodeId}
    {records : List Record}
    {index : Nat}
    {slot : Slot}
    {node : NodeId}

/-- Later records do not change who wrote a slot last. -/
theorem lastWriter_append_iff
    {later : List Record}
    {writer : Nat}
    (inside : index ≤ records.length) :
    LastWriter (records ++ later) index slot writer ↔ LastWriter records index slot writer := by
  have same : ∀ position < index, (records ++ later)[position]? = records[position]? :=
    fun position before => List.getElem?_append_left (Nat.lt_of_lt_of_le before inside)
  constructor
  · rintro ⟨before, ⟨record, present, result⟩, last⟩
    rw [same writer before] at present
    refine ⟨before, ⟨record, present, result⟩, fun position other behind ahead => ?_⟩
    rw [← same position ahead]
    exact last position other behind ahead
  · rintro ⟨before, ⟨record, present, result⟩, last⟩
    rw [← same writer before] at present
    refine ⟨before, ⟨record, present, result⟩, fun position other behind ahead => ?_⟩
    rw [same position ahead]
    exact last position other behind ahead

/-- A record is the last to write its result until the next record is run. -/
theorem lastWriter_succ
    {record : Record}
    (present : records[index]? = some record) :
    LastWriter records (index + 1) record.result index where
  before := Nat.lt_succ_self index
  writes := ⟨record, present, rfl⟩
  last _ _ behind ahead _ :=
    absurd (Nat.lt_of_lt_of_le behind (Nat.le_of_lt_succ ahead)) (Nat.lt_irrefl _)

/-- A record that writes another slot leaves a result where it is. -/
theorem LastWriter.succ
    {writer : Nat}
    (wrote : LastWriter records index slot writer)
    {record : Record}
    (present : records[index]? = some record)
    (different : record.result ≠ slot) :
    LastWriter records (index + 1) slot writer where
  before := Nat.lt_succ_of_lt wrote.before
  writes := wrote.writes
  last later other behind ahead presentLater := by
    rcases Nat.lt_or_eq_of_le (Nat.le_of_lt_succ ahead) with inside | rfl
    · exact wrote.last later other behind inside presentLater
    · rw [present] at presentLater
      cases presentLater
      exact different

/-- A slot has one last writer. -/
theorem LastWriter.unique
    {first second : Nat}
    (wrote : LastWriter records index slot first)
    (again : LastWriter records index slot second) :
    first = second := by
  rcases Nat.lt_trichotomy first second with less | same | more
  · obtain ⟨record, present, result⟩ := again.writes
    exact absurd result (wrote.last second record less again.before present)
  · exact same
  · obtain ⟨record, present, result⟩ := wrote.writes
    exact absurd result (again.last first record more wrote.before present)

/-- No record of a valid script writes a data slot. -/
theorem LastWriter.ne_data
    {script : Script}
    {writer : Nat}
    (wrote : LastWriter script.records index slot writer)
    (valid : script.validate = .ok ())
    (place : Nat) :
    slot ≠ .data place := by
  obtain ⟨record, present, rfl⟩ := wrote.writes
  obtain ⟨before, after, split⟩ := List.append_of_mem (List.mem_of_getElem? present)
  have fits := (validate_eq_ok_iff.1 valid).2.2 before record after split
  cases last : after.isEmpty with
  | true =>
    rw [fits.output last]
    rintro ⟨⟩
  | false =>
    obtain ⟨index, -, result⟩ := fits.cache last
    rw [result]
    rintro ⟨⟩

theorem leftBy_append_iff
    {later : List Record}
    (inside : index ≤ records.length) :
    LeftBy (records ++ later) nodes index slot node ↔ LeftBy records nodes index slot node := by
  simp only [LeftBy, lastWriter_append_iff inside]

/-- A record leaves the result of its node. -/
theorem leftBy_concat
    (record : Record)
    (found : nodes[records.length]? = some node) :
    LeftBy (records ++ [record]) nodes (records.length + 1) record.result node :=
  ⟨records.length, lastWriter_succ List.getElem?_concat_length, found⟩

theorem LeftBy.concat
    (left : LeftBy records nodes records.length slot node)
    {record : Record}
    (different : record.result ≠ slot) :
    LeftBy (records ++ [record]) nodes (records.length + 1) slot node := by
  obtain ⟨writer, wrote, found⟩ := left
  exact ⟨writer, ((lastWriter_append_iff (Nat.le_refl _)).2 wrote).succ
    List.getElem?_concat_length different, found⟩

/-- A node leaves its result in one slot. -/
theorem LeftBy.slot_unique
    {other : Slot}
    (distinct : nodes.Nodup)
    (left : LeftBy records nodes index slot node)
    (again : LeftBy records nodes index other node) :
    slot = other := by
  obtain ⟨first, ⟨-, ⟨record, present, result⟩, -⟩, found⟩ := left
  obtain ⟨second, ⟨-, ⟨writer, presentAgain, resultAgain⟩, -⟩, foundAgain⟩ := again
  obtain rfl := (List.getElem?_inj (List.getElem?_eq_some_iff.1 found).1 distinct).1
    (found.trans foundAgain.symm)
  rw [present] at presentAgain
  cases presentAgain
  exact result.symm.trans resultAgain

/-- A slot has the result of one node. -/
theorem LeftBy.node_unique
    {other : NodeId}
    (left : LeftBy records nodes index slot node)
    (again : LeftBy records nodes index slot other) :
    node = other := by
  obtain ⟨first, wrote, found⟩ := left
  obtain ⟨second, wroteAgain, foundAgain⟩ := again
  obtain rfl := wrote.unique wroteAgain
  exact Option.some.inj (found.symm.trans foundAgain)

theorem holdsLive_append_iff
    {later : List Record}
    {place : Nat}
    (inside : index ≤ records.length) :
    HoldsLive arena nodes (records ++ later) index place ↔
      HoldsLive arena nodes records index place := by
  simp only [HoldsLive, leftBy_append_iff inside]

end

namespace Placement

/-! ## The first free slot -/

/-- All slots before the one that is allocated are in use. -/
theorem below_allocate
    {placement : Placement}
    {node : NodeId}
    {index : Nat}
    (below : index < (placement.allocate node).1) :
    ∃ other, placement.slots[index]? = some (some other) := by
  have used : ∃ inside : index < placement.slots.length,
      placement.slots[index].isNone = false := by
    unfold allocate at below
    split at below
    next free first =>
      obtain ⟨inside, -, before⟩ := List.findIdx?_eq_some_iff_getElem.1 first
      exact ⟨Nat.lt_trans below inside, Bool.eq_false_iff.2 (before index below)⟩
    next full =>
      rw [List.findIdx?_eq_none_iff] at full
      exact ⟨below, full _ (List.getElem_mem below)⟩
  obtain ⟨inside, used⟩ := used
  obtain ⟨other, held⟩ := Option.isSome_iff_exists.1 (Option.isNone_eq_false_iff.1 used)
  exact ⟨other, by rw [List.getElem?_eq_getElem inside, held]⟩

/-- A slot is added just if all of them are in use. -/
theorem length_slots_allocate (placement : Placement) (node : NodeId) :
    (placement.allocate node).2.slots.length =
      max placement.slots.length (placement.slots.reduceOption.length + 1) := by
  unfold allocate
  split
  next free first =>
    obtain ⟨inside, empty, -⟩ := List.findIdx?_eq_some_iff_getElem.1 first
    have some : none ∈ placement.slots :=
      List.mem_of_getElem (Option.isNone_iff_eq_none.1 empty)
    have fewer := List.reduceOption_length_lt_iff.2 some
    simp only [List.length_set]
    omega
  next full =>
    rw [List.findIdx?_eq_none_iff] at full
    have all := List.reduceOption_length_eq_iff.2 fun slot member =>
      Option.isNone_eq_false_iff.1 (full slot member)
    simp only [List.length_append, List.length_singleton, all]
    omega

/-- A slot is used again just if none is added. -/
theorem reused_allocate (placement : Placement) (node : NodeId) :
    (placement.allocate node).2.slots.length + (placement.allocate node).2.reused =
      placement.slots.length + placement.reused + 1 := by
  unfold allocate
  split
  · simp only [List.length_set]
    omega
  · simp only [List.length_append, List.length_singleton]
    omega

/-! ## What the slots hold -/

/-- The nodes of an order that become records. -/
def computedOf (arena : Arena) (order : List NodeId) : List NodeId :=
  order.filter (!arena.isLeaf ·)

/-- The next record is that of the next node that is not a leaf. -/
theorem Sound.getElem?_computedOf
    {order before rest : List NodeId}
    {placement : Placement}
    {node : NodeId}
    (sound : placement.Sound arena before (node :: rest))
    (split : order = before ++ node :: rest)
    (computed : arena.isLeaf node = false) :
    (computedOf arena order)[placement.records.toList.length]? = some node := by
  rw [computedOf, split, List.filter_append, ← sound.nodes, Array.length_toList, ← sound.length,
    List.filter_cons_of_pos (by simpa using computed), ← Array.length_toList,
    List.getElem?_append_right (Nat.le_refl _), Nat.sub_self, List.getElem?_cons_zero]

/-- Leaves read nothing. -/
theorem mem_operands_computedOf_iff
    {nodes : List NodeId}
    {node : NodeId} :
    node ∈ (computedOf arena nodes).flatMap arena.operands ↔
      node ∈ nodes.flatMap arena.operands := by
  simp only [computedOf, List.mem_flatMap, List.mem_filter]
  constructor
  · rintro ⟨user, ⟨among, -⟩, member⟩
    exact ⟨user, among, member⟩
  · rintro ⟨user, among, member⟩
    refine ⟨user, ⟨among, ?_⟩, member⟩
    cases leaf : arena.isLeaf user with
    | false => rfl
    | true =>
      rw [Arena.operands, Arena.isLeaf_iff.1 leaf] at member
      cases member

/--
The slots in use have results that are still read, each result in one slot; every
record so far took the first slot that had no live result.
-/
structure Tight
    (arena : Arena)
    (order rest : List NodeId)
    (placement : Placement) : Prop where
  wanted : ∀ {index : Nat} {node : NodeId}, placement.slots[index]? = some (some node) →
    node ∈ rest.flatMap arena.operands
  single : ∀ {index other : Nat} {node : NodeId}, placement.slots[index]? = some (some node) →
    placement.slots[other]? = some (some node) → index = other
  written : ∀ {index : Nat} {node : NodeId}, placement.slots[index]? = some (some node) →
    LeftBy placement.records.toList (computedOf arena order) placement.records.size
      (.cache index) node
  firstFit : ∀ (position : Nat) (record : Record), placement.records[position]? = some record →
    ∃ index, record.result = .cache index ∧
      ¬ HoldsLive arena (computedOf arena order) placement.records.toList position index ∧
      ∀ lower < index,
        HoldsLive arena (computedOf arena order) placement.records.toList position lower
  peak : placement.slots.length = (Finset.range placement.records.size).sup
    fun position => (live arena (computedOf arena order) position).length + 1
  count : placement.records.size = placement.slots.length + placement.reused

section

variable {order before rest : List NodeId} {placement : Placement} {node : NodeId}

theorem tight_start : Tight arena order rest .start where
  wanted held := by simp [start] at held
  single held := by simp [start] at held
  written held := by simp [start] at held
  firstFit _ _ found := by simp [start] at found
  peak := rfl
  count := rfl

theorem Tight.leaf
    (tight : Tight arena order (node :: rest) placement)
    (isLeaf : arena.operation? node = some .leaf) :
    Tight arena order rest (placeLeaf arena order placement node false) where
  wanted held := by
    have wanted := tight.wanted held
    rwa [List.flatMap_cons, Arena.operands, isLeaf] at wanted
  single := tight.single
  written := tight.written
  firstFit := tight.firstFit
  peak := tight.peak
  count := tight.count

/-- The results in use are those that are live at the next record. -/
theorem Tight.mem_live_iff
    (tight : Tight arena order rest placement)
    (sound : placement.Sound arena before rest)
    (split : order = before ++ rest)
    (other : NodeId) :
    other ∈ live arena (computedOf arena order) placement.records.size ↔
      some other ∈ placement.slots := by
  have taken : (before.filter (!arena.isLeaf ·)).length = placement.records.size := by
    rw [← sound.nodes, Array.length_toList, sound.length]
  have parts : computedOf arena order =
      before.filter (!arena.isLeaf ·) ++ computedOf arena rest := by
    rw [split, computedOf, List.filter_append, computedOf]
  rw [Script.mem_live_iff, parts, ← taken, List.take_left, List.drop_left,
    mem_operands_computedOf_iff]
  constructor
  · rintro ⟨member, wanted⟩
    obtain ⟨among, computed⟩ := List.mem_filter.1 member
    exact sound.live other among (by simpa using computed) wanted
  · intro member
    obtain ⟨index, held⟩ := List.mem_iff_getElem?.1 member
    obtain ⟨among, computed⟩ := sound.held held
    exact ⟨List.mem_filter.2 ⟨among, by simpa using computed⟩, tight.wanted held⟩

/-- As many slots are in use as results are live at the next record. -/
theorem Tight.length_live
    (tight : Tight arena order rest placement)
    (sound : placement.Sound arena before rest)
    (split : order = before ++ rest)
    (distinct : order.Nodup) :
    (live arena (computedOf arena order) placement.records.size).length =
      placement.slots.reduceOption.length := by
  have nodup : placement.slots.reduceOption.Nodup := by
    rw [List.reduceOption, List.Nodup, List.pairwise_filterMap, List.pairwise_iff_getElem]
    intro index other inside insideOther lower node held again heldAgain
    rintro rfl
    have same := tight.single (List.getElem?_eq_some_iff.2 ⟨inside, held⟩)
      (List.getElem?_eq_some_iff.2 ⟨insideOther, heldAgain⟩)
    omega
  have distinctLive : (live arena (computedOf arena order) placement.records.size).Nodup :=
    ((distinct.filter _).sublist (List.take_sublist ..)).filter _
  refine ((List.perm_ext_iff_of_nodup distinctLive nodup).2 fun other => ?_).length_eq
  rw [tight.mem_live_iff sound split, List.reduceOption_mem_iff]

/-- The first free slot has no live result, and all slots before it do. -/
theorem Tight.firstFit_allocate
    (tight : Tight arena order rest placement)
    (sound : placement.Sound arena before rest)
    (split : order = before ++ rest)
    (distinct : order.Nodup)
    (node : NodeId) :
    ¬ HoldsLive arena (computedOf arena order) placement.records.toList placement.records.size
        (placement.allocate node).1 ∧
      ∀ lower < (placement.allocate node).1,
        HoldsLive arena (computedOf arena order) placement.records.toList placement.records.size
          lower := by
  refine ⟨?_, fun lower below => ?_⟩
  · rintro ⟨other, member, left⟩
    obtain ⟨index, held⟩ :=
      List.mem_iff_getElem?.1 ((tight.mem_live_iff sound split other).1 member)
    have same := left.slot_unique (distinct.filter _) (tight.written held)
    cases same
    exact placement.free_allocate node other held
  · obtain ⟨other, held⟩ := below_allocate below
    exact ⟨other, (tight.mem_live_iff sound split other).2 (List.mem_of_getElem? held),
      tight.written held⟩

theorem Tight.record
    (tight : Tight arena order (node :: rest) placement)
    (sound : placement.Sound arena before (node :: rest))
    (split : order = before ++ node :: rest)
    (distinct : order.Nodup)
    (readLater : node ∈ rest.flatMap arena.operands)
    (computed : arena.isLeaf node = false)
    (opcode : OpCode)
    (leftSlot : Slot)
    (rightSlot : Option Slot) :
    Tight arena order rest
      (placement.advance node opcode leftSlot rightSlot (finished arena node rest)) := by
  have fresh : node ∉ before := by
    rw [split] at distinct
    exact fun member => (List.nodup_append.1 distinct).2.2 node member node List.mem_cons_self rfl
  have place := sound.getElem?_computedOf split computed
  -- a slot in use has the result of the node or one that was there before
  have slots : ∀ {index : Nat} {other : NodeId},
      (placement.advance node opcode leftSlot rightSlot
        (finished arena node rest)).slots[index]? = some (some other) →
      other ∉ finished arena node rest ∧
        (index = (placement.allocate node).1 ∧ other = node ∨
          placement.slots[index]? = some (some other) ∧ other ≠ node) := by
    intro index other held
    obtain ⟨kept, there⟩ := (slots_advance ..).1 held
    refine ⟨kept, ?_⟩
    split at there
    next same => exact .inl ⟨same, there⟩
    · exact .inr ⟨there, fun same => fresh (same ▸ (sound.held there).1)⟩
  refine
    { wanted := ?wanted
      single := ?single
      written := ?written
      firstFit := ?firstFit
      peak := ?peak
      count := ?count }
  case wanted =>
    intro index other held
    obtain ⟨kept, ⟨-, rfl⟩ | ⟨held, -⟩⟩ := slots held
    · exact readLater
    · by_contra unread
      have reads : other ∈ arena.operands node := by
        have wanted := tight.wanted held
        rw [List.flatMap_cons, List.mem_append] at wanted
        exact wanted.resolve_right unread
      exact kept (List.mem_filter.2 ⟨reads, by simpa using unread⟩)
  case single =>
    intro index second other held again
    obtain ⟨-, ⟨same, isNew⟩ | ⟨held, isOld⟩⟩ := slots held
    · obtain ⟨-, ⟨sameAgain, -⟩ | ⟨-, isOld⟩⟩ := slots again
      · rw [same, sameAgain]
      · exact absurd isNew isOld
    · obtain ⟨-, ⟨-, isNew⟩ | ⟨again, -⟩⟩ := slots again
      · exact absurd isNew isOld
      · exact tight.single held again
  case written =>
    intro index other held
    rw [records_advance, Array.toList_push, Array.size_push, ← Array.length_toList]
    obtain ⟨-, ⟨rfl, rfl⟩ | ⟨held, -⟩⟩ := slots held
    · exact leftBy_concat _ place
    · refine (tight.written held).concat ?_
      rintro ⟨⟩
      exact placement.free_allocate node other held
  case firstFit =>
    intro position record present
    rw [records_advance, Array.getElem?_push] at present
    rw [records_advance, Array.toList_push]
    split at present
    next last =>
      cases present
      rw [last]
      have fits := tight.firstFit_allocate sound split distinct node
      refine ⟨_, rfl, ?_, fun lower below => ?_⟩
      · rw [holdsLive_append_iff (by simp)]
        exact fits.1
      · rw [holdsLive_append_iff (by simp)]
        exact fits.2 lower below
    next =>
      have inside := (Array.getElem?_eq_some_iff.1 present).1
      obtain ⟨index, result, free, below⟩ := tight.firstFit position record present
      refine ⟨index, result, ?_, fun lower less => ?_⟩
      · rw [holdsLive_append_iff (by simpa using Nat.le_of_lt inside)]
        exact free
      · rw [holdsLive_append_iff (by simpa using Nat.le_of_lt inside)]
        exact below lower less
  case peak =>
    rw [length_slots_advance, records_advance, Array.size_push, Finset.range_add_one,
      Finset.sup_insert,
      tight.length_live sound split distinct, ← tight.peak, length_slots_allocate, sup_comm]
  case count =>
    have grown := placement.reused_allocate node
    have count := tight.count
    rw [length_slots_advance, records_advance, Array.size_push]
    simp only [advance, free, emit]
    omega

end

end Placement

variable {order before rest : List NodeId} {placement : Placement}

theorem Placed.tight
    (proper : ∀ node operation, arena.operation? node = some operation → operation.Proper)
    (readLater : arena.ReadLater order)
    (distinct : order.Nodup)
    (placed : Placed arena order before rest placement) :
    placement.Tight arena order rest := by
  induction placed with
  | start => exact Placement.tight_start
  | leaf _ _ isLeaf step => exact step.leaf isLeaf
  | record earlier more found parts _ _ step =>
    exact step.record (earlier.sound proper) earlier.split distinct
      (readLater _ _ _ earlier.split more) (Arena.isLeaf_of_parts? found parts) _ _ _

/-! ## What the records read -/

/--
A slot that the record at an index reads carries a node: a data slot the leaf behind it,
and any other the node whose result it still has.
-/
def Carries
    (data nodes : List NodeId)
    (records : List Record)
    (index : Nat)
    (node : NodeId) : Slot → Prop
  | .data place => data[place]? = some node
  | slot => LeftBy records nodes index slot node

/-- A record applies the operation of a node to slots that carry its operands. -/
def Implements
    (arena : Arena)
    (data nodes : List NodeId)
    (records : List Record)
    (index : Nat)
    (record : Record)
    (node : NodeId) : Prop :=
  ∃ operation left right, arena.operation? node = some operation ∧
    operation.parts? = some (record.opcode, left, right) ∧
    Carries data nodes records index left record.left ∧
    Option.Rel (Carries data nodes records index) right record.right

theorem carries_append_iff
    {data nodes : List NodeId}
    {records later : List Record}
    {index : Nat}
    {node : NodeId}
    {slot : Slot}
    (inside : index ≤ records.length) :
    Carries data nodes (records ++ later) index node slot ↔
      Carries data nodes records index node slot := by
  cases slot with
  | data place => exact Iff.rfl
  | cache place => exact leftBy_append_iff inside
  | output => exact leftBy_append_iff inside

theorem implements_append_iff
    {data nodes : List NodeId}
    {records later : List Record}
    {index : Nat}
    {record : Record}
    {node : NodeId}
    (inside : index ≤ records.length) :
    Implements arena data nodes (records ++ later) index record node ↔
      Implements arena data nodes records index record node := by
  have same : Carries data nodes (records ++ later) index = Carries data nodes records index := by
    funext node slot
    exact propext (carries_append_iff inside)
  rw [Implements, Implements, same]

theorem Carries.leftBy_of_ne_data
    {data nodes : List NodeId}
    {records : List Record}
    {index : Nat}
    {node : NodeId}
    {slot : Slot}
    (carries : Carries data nodes records index node slot)
    (notData : ∀ place, slot ≠ .data place) :
    LeftBy records nodes index slot node := by
  cases slot with
  | data place => exact absurd rfl (notData place)
  | cache _ => exact carries
  | output => exact carries

/-- A node that is not a leaf is carried as a result. -/
theorem Carries.leftBy
    {data nodes : List NodeId}
    {records : List Record}
    {index : Nat}
    {node : NodeId}
    {slot : Slot}
    (carries : Carries data nodes records index node slot)
    (leaves : ∀ leaf ∈ data, arena.isLeaf leaf)
    (computed : arena.isLeaf node = false) :
    LeftBy records nodes index slot node := by
  refine carries.leftBy_of_ne_data ?_
  rintro place rfl
  rw [leaves node (List.mem_of_getElem? carries)] at computed
  cases computed

/-- The slots that a record reads carry operands of its node. -/
theorem Implements.exists_operand
    {data nodes : List NodeId}
    {records : List Record}
    {index : Nat}
    {record : Record}
    {node : NodeId}
    {slot : Slot}
    (implements : Implements arena data nodes records index record node)
    (member : slot ∈ record.operands) :
    ∃ operand ∈ arena.operands node, Carries data nodes records index operand slot := by
  obtain ⟨opcode, result, leftSlot, rightSlot⟩ := record
  obtain ⟨operation, left, right, found, parts, carriesLeft, carriesRight⟩ := implements
  rw [Arena.operands_of_parts? found parts]
  rcases List.mem_cons.1 member with rfl | member
  · exact ⟨left, List.mem_cons_self, carriesLeft⟩
  · cases carriesRight with
    | none => cases member
    | @some other _ carries =>
      rw [Option.toList_some, List.mem_singleton] at member
      exact ⟨other, by simp, member ▸ carries⟩

/-- The operands of a node are carried by slots that its record reads. -/
theorem Implements.exists_slot
    {data nodes : List NodeId}
    {records : List Record}
    {index : Nat}
    {record : Record}
    {node operand : NodeId}
    (implements : Implements arena data nodes records index record node)
    (member : operand ∈ arena.operands node) :
    ∃ slot ∈ record.operands, Carries data nodes records index operand slot := by
  obtain ⟨opcode, result, leftSlot, rightSlot⟩ := record
  obtain ⟨operation, left, right, found, parts, carriesLeft, carriesRight⟩ := implements
  rw [Arena.operands_of_parts? found parts] at member
  rcases List.mem_cons.1 member with rfl | member
  · exact ⟨leftSlot, List.mem_cons_self, carriesLeft⟩
  · cases carriesRight with
    | none => cases member
    | @some _ slot carries =>
      rw [Option.toList_some, List.mem_singleton] at member
      exact ⟨slot, by simp [Record.operands], member ▸ carries⟩

/-- Every record of a list implements its node. -/
def Faithful (arena : Arena) (data nodes : List NodeId) (records : List Record) : Prop :=
  ∀ (index : Nat) (record : Record) (node : NodeId), records[index]? = some record →
    nodes[index]? = some node → Implements arena data nodes records index record node

theorem Faithful.concat
    {data nodes : List NodeId}
    {records : List Record}
    (faithful : Faithful arena data nodes records)
    {last : Record}
    {node : NodeId}
    (found : nodes[records.length]? = some node)
    (implements : Implements arena data nodes records records.length last node) :
    Faithful arena data nodes (records ++ [last]) := by
  intro index record other present among
  rcases Nat.lt_or_ge index records.length with inside | beyond
  · rw [List.getElem?_append_left inside] at present
    rw [implements_append_iff (Nat.le_of_lt inside)]
    exact faithful index record other present among
  · have bound := (List.getElem?_eq_some_iff.1 present).1
    obtain rfl : index = records.length := by
      rw [List.length_append, List.length_singleton] at bound
      omega
    rw [List.getElem?_concat_length] at present
    rw [found] at among
    cases present
    cases among
    exact (implements_append_iff (Nat.le_refl _)).2 implements

/-- The slot in which a node is found carries it. -/
theorem Placement.Tight.carries
    (tight : placement.Tight arena order rest)
    (sound : placement.Sound arena before rest)
    (split : order = before ++ rest)
    {node : NodeId}
    {slot : Slot}
    (found : placement.slot? node = some slot) :
    Carries (order.filter arena.isLeaf) (computedOf arena order) placement.records.toList
      placement.records.size node slot := by
  cases slot with
  | data place =>
    have held := data_of_slot? found
    rw [sound.data] at held
    rw [Carries, split, List.filter_append,
      List.getElem?_append_left (List.getElem?_eq_some_iff.1 held).1, held]
  | cache place => exact tight.written (slots_of_slot? found)
  | output => exact absurd found slot?_ne_output

/-- A record over the slots of the operands implements its node. -/
theorem Placement.Tight.implements
    (tight : placement.Tight arena order rest)
    (sound : placement.Sound arena before rest)
    (split : order = before ++ rest)
    {node left : NodeId}
    {right : Option NodeId}
    {opcode : OpCode}
    {operation : Operation}
    {leftSlot : Slot}
    {rightSlot : Option Slot}
    (result : Slot)
    (found : arena.operation? node = some operation)
    (parts : operation.parts? = some (opcode, left, right))
    (leftAt : placement.slot? left = some leftSlot)
    (rightAt : right.mapM placement.slot? = some rightSlot) :
    Implements arena (order.filter arena.isLeaf) (computedOf arena order)
      placement.records.toList placement.records.size ⟨opcode, result, leftSlot, rightSlot⟩
      node := by
  refine ⟨operation, left, right, found, parts, tight.carries sound split leftAt, ?_⟩
  rcases slot?_right rightAt with ⟨rfl, rfl⟩ | ⟨other, slot, rfl, rfl, held⟩
  · exact .none
  · exact .some (tight.carries sound split held)

/-- The records that were placed implement their nodes. -/
theorem Placed.faithful
    (proper : ∀ node operation, arena.operation? node = some operation → operation.Proper)
    (readLater : arena.ReadLater order)
    (distinct : order.Nodup)
    (placed : Placed arena order before rest placement) :
    Faithful arena (order.filter arena.isLeaf) (Placement.computedOf arena order)
      placement.records.toList := by
  induction placed with
  | start => exact fun _ _ _ present => by cases present
  | leaf _ _ _ step => exact step
  | record earlier _ found parts leftAt rightAt step =>
    have sound := earlier.sound proper
    rw [Placement.records_advance, Array.toList_push]
    exact step.concat (sound.getElem?_computedOf earlier.split (Arena.isLeaf_of_parts? found parts))
      ((earlier.tight proper readLater distinct).implements sound earlier.split _ found parts
        leftAt rightAt)

/-! ## The finished script -/

variable {output : NodeId} {script : Script}

/-- Nothing is placed before the first node. -/
theorem Placed.eq_start (placed : Placed arena order [] rest placement) : placement = .start := by
  generalize nothing : ([] : List NodeId) = before at placed
  cases placed with
  | start => rfl
  | leaf _ _ _ => simp at nothing
  | record _ _ _ _ _ _ => simp at nothing

/-- A leaf is compiled to a single copy of it. -/
theorem Compiled.eq_copy
    (compiled : Compiled arena output script)
    (isLeaf : arena.operation? output = some .leaf) :
    script.records = [⟨.copy, .output, .data 0, none⟩] ∧ script.nodes = [output] ∧
      script.data = [output] ∧ script.cacheSize = 0 ∧ script.statistics.reusedSlots = 0 := by
  cases compiled with
  | @leaf before placement order placed _ =>
    rw [Arena.postOrder_of_leaf isLeaf] at order
    obtain rfl : before = [] := by simpa using order
    rw [placed.eq_start]
    exact ⟨rfl, rfl, rfl, rfl, rfl⟩
  | record order placed found parts _ _ =>
    rw [isLeaf] at found
    cases found
    cases parts

/-- The records of an output that is not a leaf: those that were placed, and its own. -/
theorem Compiled.exists_placed
    (compiled : Compiled arena output script)
    (computed : arena.isLeaf output = false) :
    ∃ (before : List NodeId) (placement : Placement) (record : Record),
      Placed arena (arena.postOrder [] output).reverse before [output] placement ∧
      script.records = placement.records.toList ++ [record] ∧
      script.cacheSize = placement.slots.length ∧
      script.statistics.reusedSlots = placement.reused ∧
      ∃ operation left right, arena.operation? output = some operation ∧
        operation.parts? = some (record.opcode, left, right) ∧
        placement.slot? left = some record.left ∧
        right.mapM placement.slot? = some record.right := by
  cases compiled with
  | leaf _ _ isLeaf =>
    rw [Arena.isLeaf_iff.2 isLeaf] at computed
    cases computed
  | @record before placement left right opcode operation leftSlot rightSlot
      order placed found parts leftAt rightAt =>
    rw [← order] at placed
    refine ⟨before, placement, ⟨opcode, .output, leftSlot, rightSlot⟩, placed, ?_, ?_, rfl,
      operation, left, right, found, parts, leftAt, rightAt⟩
    · simp [ofPlacement, Placement.free, Placement.emit]
    · simp [ofPlacement, Placement.free, Placement.emit]

section

variable
    (ordered : arena.Ordered)
    (proper : ∀ node operation, arena.operation? node = some operation → operation.Proper)
    (compiled : Compiled arena output script)

include ordered proper compiled

/-- Every record but the last takes the first slot that holds no live result. -/
theorem Compiled.firstFit
    {index : Nat}
    {record : Record}
    (notLast : index + 1 < script.length)
    (present : script.records[index]? = some record) :
    ∃ slot, record.result = .cache slot ∧
      ¬ HoldsLive arena script.nodes script.records index slot ∧
      ∀ lower < slot, HoldsLive arena script.nodes script.records index lower := by
  cases isLeaf : arena.isLeaf output with
  | true =>
    obtain ⟨records, -⟩ := compiled.eq_copy (Arena.isLeaf_iff.1 isLeaf)
    rw [length, records] at notLast
    simp at notLast
  | false =>
    obtain ⟨before, placement, last, placed, records, -⟩ := compiled.exists_placed isLeaf
    have tight := placed.tight proper (arena.readLater_postOrder ordered output)
      (arena.nodup_postOrder ordered output)
    have nodes : script.nodes = Placement.computedOf arena (arena.postOrder [] output).reverse :=
      compiled.nodes proper isLeaf
    have inside : index < placement.records.toList.length := by
      rw [length, records, List.length_append, List.length_singleton] at notLast
      omega
    rw [records, List.getElem?_append_left inside, Array.getElem?_toList] at present
    obtain ⟨slot, result, free, below⟩ := tight.firstFit index record present
    rw [← nodes] at free below
    refine ⟨slot, result, ?_, fun lower less => ?_⟩
    · rwa [records, holdsLive_append_iff (Nat.le_of_lt inside)]
    · rw [records, holdsLive_append_iff (Nat.le_of_lt inside)]
      exact below lower less

/-- There are as many slots as results that are live at once and one that is written beside them. -/
theorem Compiled.cacheSize_eq :
    script.cacheSize = (Finset.range (script.length - 1)).sup
      fun index => (live arena script.nodes index).length + 1 := by
  cases isLeaf : arena.isLeaf output with
  | true =>
    obtain ⟨records, -, -, size, -⟩ := compiled.eq_copy (Arena.isLeaf_iff.1 isLeaf)
    rw [size, length, records]
    rfl
  | false =>
    obtain ⟨before, placement, last, placed, records, size, -⟩ := compiled.exists_placed isLeaf
    have tight := placed.tight proper (arena.readLater_postOrder ordered output)
      (arena.nodup_postOrder ordered output)
    have nodes : script.nodes = Placement.computedOf arena (arena.postOrder [] output).reverse :=
      compiled.nodes proper isLeaf
    have others : script.length - 1 = placement.records.size := by
      rw [length, records, List.length_append, List.length_singleton, Array.length_toList,
        Nat.add_sub_cancel]
    rw [size, others, nodes, tight.peak]

/-- Every record but the last takes a slot that is new or was used before. -/
theorem Compiled.length_eq :
    script.length = 1 + script.cacheSize + script.statistics.reusedSlots := by
  cases isLeaf : arena.isLeaf output with
  | true =>
    obtain ⟨records, -, -, size, reused⟩ := compiled.eq_copy (Arena.isLeaf_iff.1 isLeaf)
    rw [length, records, size, reused]
    rfl
  | false =>
    obtain ⟨before, placement, last, placed, records, size, reused, -⟩ :=
      compiled.exists_placed isLeaf
    have tight := placed.tight proper (arena.readLater_postOrder ordered output)
      (arena.nodup_postOrder ordered output)
    have count := tight.count
    rw [length, records, size, reused, List.length_append, List.length_singleton,
      Array.length_toList]
    omega

/-- The records of an output that is not a leaf implement their nodes. -/
theorem Compiled.faithful (computed : arena.isLeaf output = false) :
    Faithful arena script.data script.nodes script.records := by
  obtain ⟨before, placement, last, placed, records, -, -, operation, left, right, found, parts,
    leftAt, rightAt⟩ := compiled.exists_placed computed
  have nodes : script.nodes = Placement.computedOf arena (arena.postOrder [] output).reverse :=
    compiled.nodes proper computed
  have readLater := arena.readLater_postOrder ordered output
  have distinct := arena.nodup_postOrder ordered output
  have sound := placed.sound proper
  rw [nodes, records, compiled.data proper]
  exact (placed.faithful proper readLater distinct).concat
    (sound.getElem?_computedOf placed.split computed)
    ((placed.tight proper readLater distinct).implements sound placed.split _ found parts leftAt
      rightAt)

/--
A result is live at a record just if it was written before and the record or a later one
reads it.
-/
theorem Compiled.mem_live_iff_reads
    {index : Nat}
    {node : NodeId} :
    node ∈ live arena script.nodes index ↔
      node ∈ script.nodes.take index ∧
        ∃ reader, index ≤ reader ∧ Reads script.records script.nodes reader node := by
  have valid := compiled.validate proper
  rw [mem_live_iff]
  refine and_congr_right fun written => ?_
  cases isLeaf : arena.isLeaf output with
  | true =>
    -- the copy of a leaf reads nothing but its data slot
    have operation := Arena.isLeaf_iff.1 isLeaf
    obtain ⟨records, nodes, -⟩ := compiled.eq_copy operation
    constructor
    · intro read
      obtain ⟨user, among, operand⟩ := List.mem_flatMap.1 read
      obtain rfl : user = output := by
        simpa [nodes] using List.mem_of_mem_drop among
      rw [Arena.operands, operation] at operand
      cases operand
    · rintro ⟨reader, -, record, slot, present, member, writer, wrote, -⟩
      have copy := List.mem_of_getElem? present
      rw [records, List.mem_singleton] at copy
      obtain rfl : slot = .data 0 := by simpa [copy, Record.operands] using member
      exact absurd rfl (wrote.ne_data valid 0)
  | false =>
    have faithful := compiled.faithful ordered proper isLeaf
    have sameLength := (validate_eq_ok_iff.1 valid).2.1
    have computed : arena.isLeaf node = false := by
      have member := List.mem_of_mem_take written
      rw [compiled.nodes proper isLeaf, List.mem_filter] at member
      simpa using member.2
    have leaves : ∀ leaf ∈ script.data, arena.isLeaf leaf := by
      intro leaf member
      rw [compiled.data proper, List.mem_filter] at member
      exact member.2
    constructor
    · intro read
      obtain ⟨user, among, operand⟩ := List.mem_flatMap.1 read
      obtain ⟨offset, found⟩ := List.mem_iff_getElem?.1 among
      rw [List.getElem?_drop] at found
      have inside : index + offset < script.records.length := by
        rw [← sameLength]
        exact (List.getElem?_eq_some_iff.1 found).1
      have present := List.getElem?_eq_getElem inside
      obtain ⟨slot, member, carries⟩ :=
        (faithful _ _ _ present found).exists_slot operand
      exact ⟨index + offset, Nat.le_add_right .., _, slot, present, member,
        carries.leftBy leaves computed⟩
    · rintro ⟨reader, beyond, record, slot, present, member, left⟩
      obtain ⟨user, found⟩ : ∃ user, script.nodes[reader]? = some user :=
        ⟨_, List.getElem?_eq_getElem (by
          rw [sameLength]
          exact (List.getElem?_eq_some_iff.1 present).1)⟩
      obtain ⟨other, operand, carries⟩ :=
        (faithful _ _ _ present found).exists_operand member
      obtain rfl : node = other := by
        obtain ⟨writer, wrote, -⟩ := id left
        exact left.node_unique (carries.leftBy_of_ne_data fun place => wrote.ne_data valid place)
      refine List.mem_flatMap.2 ⟨user, List.mem_iff_getElem?.2 ⟨reader - index, ?_⟩, operand⟩
      rw [List.getElem?_drop, Nat.add_sub_cancel' beyond]
      exact found

end

end Script

end Elementwise
