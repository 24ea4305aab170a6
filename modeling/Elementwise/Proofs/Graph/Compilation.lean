import Elementwise.Proofs.Gradient.Resolution
import Elementwise.Proofs.Graph.Room

/-!
# What a node is compiled to

Every node of every session compiles.  The search for the order of computation finds
the post-order of the graph; the records take cache slots so that no live result is
lost and no slot is wasted; and the plan for the reverse sweep finds its way back from
the slots to the nodes.
-/

namespace Elementwise

namespace Script

variable {arena : Arena} {output : NodeId} {script : Script}

/-- The statistics of a compilation count what the script has. -/
theorem Compiled.statistics (compiled : Compiled arena output script) :
    script.statistics.records = script.length ∧
      script.statistics.cacheSlots = script.cacheSize ∧
      script.statistics.dataSlots = script.data.length := by
  obtain ⟨placement, rfl⟩ : ∃ placement, script = ofPlacement output placement := by
    cases compiled with
    | leaf _ _ _ => exact ⟨_, rfl⟩
    | record _ _ _ _ _ _ => exact ⟨_, rfl⟩
  exact ⟨Array.length_toList.symm, rfl, rfl⟩

/-- A script computes leaves just if its output is one. -/
theorem Compiled.isLeaf_of_mem_nodes
    (proper : ∀ node operation, arena.operation? node = some operation → operation.Proper)
    (compiled : Compiled arena output script)
    {node : NodeId}
    (among : node ∈ script.nodes) :
    arena.isLeaf node = arena.isLeaf output := by
  cases isLeaf : arena.isLeaf output with
  | true =>
    rw [compiled.nodes_of_leaf proper isLeaf, List.mem_singleton] at among
    rw [among, isLeaf]
  | false =>
    rw [compiled.nodes proper isLeaf, List.mem_filter] at among
    simpa using among.2

end Script

namespace Graph.Session

variable {α : Type} [Element α] {session : Session α}

/-- Every node of a valid session compiles. -/
theorem step_compile
    (valid : session.Valid)
    {output : NodeId}
    (inside : output.index < session.graph.arena.size) :
    ∃ script, (session.step (.compile output)).1 = .ok (.script script) ∧
      Script.Compiled session.graph.arena output script := by
  have compiles : Ends (perform (.compile output)) session
      (fun answer _ => ∃ script, answer = .script script ∧
        Script.Compiled session.graph.arena output script)
      (fun _ _ => False) := by
    show Ends (Answer.script <$> onGraph (Graph.compile output)) session _ _
    rw [ends_map_iff, ends_onGraph_iff]
    refine (ends_compile valid output).mono ?_ ?_
    · rintro script _ ⟨-, -, -, -, -, compiled⟩
      exact ⟨script, rfl, compiled⟩
    · rintro _ _ ⟨-, outside⟩
      exact absurd inside (Nat.not_lt_of_le outside)
  obtain ⟨_, answered, script, rfl, compiled⟩ := step_eq_ok compiles
  exact ⟨script, answered, compiled⟩

section

variable
    {capacity : Nat}
    {device : DeviceId}
    {unsupported : List OpCode}
    {faults : Method → Nat → Option DeviceError}
    {config : Config}
    {commands : List (Command α)}

/-! ## The order of computation -/

/--
In every session that a run of requests leads to, the search with its stack ends for every
node, in the post-order of a recursive depth-first search from it.  That order has all nodes
that the output depends on, each once and after its operands, and ends with the output.  The
data of the script are the leaves of the order, and its nodes are the others; the script of a
leaf is a copy of it.
-/
theorem schedule_eq_postOrder
    (reached : (start capacity device unsupported faults config).run commands = session)
    {output : NodeId}
    (inside : output.index < session.graph.arena.size) :
    ∃ order script,
      session.graph.arena.schedule output = .ok order ∧
      order = (session.graph.arena.postOrder [] output).reverse ∧
      (∀ visited node, session.graph.arena.postOrder visited node =
        if node ∈ visited then visited
        else node :: (session.graph.arena.operands node).foldl session.graph.arena.postOrder
          visited) ∧
      order.Nodup ∧
      (∀ node, node ∈ order ↔ session.graph.arena.DependsOn output node) ∧
      (∀ before node after, order = before ++ node :: after →
        ∀ operand ∈ session.graph.arena.operands node, operand ∈ before) ∧
      order.getLast? = some output ∧
      (session.step (.compile output)).1 = .ok (.script script) ∧
      script.data = order.filter session.graph.arena.isLeaf ∧ script.data.Nodup ∧
      script.nodes.Nodup ∧
      (session.graph.arena.operation? output ≠ some .leaf →
        script.nodes = order.filter (!session.graph.arena.isLeaf ·)) ∧
      (session.graph.arena.operation? output = some .leaf →
        script.nodes = [output] ∧ script.records = [⟨.copy, .output, .data 0, none⟩]) := by
  have valid : session.Valid := by
    rw [← reached]
    exact run_valid ..
  have ordered := valid.arena.ordered
  have proper := valid.arena.proper
  obtain ⟨script, answered, compiled⟩ := step_compile valid inside
  refine ⟨_, script, Arena.schedule_eq ordered inside, rfl, ?_,
    Arena.nodup_postOrder ordered output, ?_, fun _ _ _ => Arena.operands_postOrder ordered,
    Arena.getLast?_postOrder ordered output, answered, compiled.data proper,
    compiled.nodup_data ordered proper, compiled.nodup_nodes ordered proper, ?_, ?_⟩
  · intro visited node
    split
    next visitedBefore => exact Arena.postOrder_of_mem visitedBefore
    next fresh => exact Arena.postOrder_of_not_mem ordered fresh
  · intro node
    rw [List.mem_reverse, Arena.mem_postOrder_nil_iff ordered]
  · exact fun computed => compiled.nodes proper (Script.isLeaf_eq_false_iff.2 computed)
  · intro isLeaf
    obtain ⟨records, nodes, -⟩ := compiled.eq_copy isLeaf
    exact ⟨nodes, records⟩

/-- The left operands of both differences were created after the right ones. -/
def weaving : List (Command Int) :=
  [.leaf ⟨[2]⟩ #[3, 5] true, .create .neg [⟨0⟩], .create .relu [⟨0⟩], .create .sub [⟨2⟩, ⟨1⟩],
    .create .neg [⟨3⟩], .create .sub [⟨4⟩, ⟨2⟩]]

theorem lt_size_weaving : (⟨5⟩ : NodeId).index < (onIntegers weaving).graph.arena.size := by
  decide +kernel

/-- The left operand comes first, however late it was created. -/
theorem schedule_eq_postOrder_weaving :
    (onIntegers weaving).graph.arena.schedule ⟨5⟩ =
        .ok [⟨0⟩, ⟨2⟩, ⟨1⟩, ⟨3⟩, ⟨4⟩, ⟨5⟩] ∧
      ((onIntegers weaving).graph.arena.postOrder [] ⟨5⟩).reverse =
        [⟨0⟩, ⟨2⟩, ⟨1⟩, ⟨3⟩, ⟨4⟩, ⟨5⟩] ∧
      ∃ script, ((onIntegers weaving).step (.compile ⟨5⟩)).1 = .ok (.script script) ∧
        script.data = [⟨0⟩] ∧ script.nodes = [⟨2⟩, ⟨1⟩, ⟨3⟩, ⟨4⟩, ⟨5⟩] := by
  have scheduled : (onIntegers weaving).graph.arena.schedule ⟨5⟩ =
      .ok [⟨0⟩, ⟨2⟩, ⟨1⟩, ⟨3⟩, ⟨4⟩, ⟨5⟩] := by
    cbv
  obtain ⟨order, script, found, isPostOrder, -, -, -, -, -, answered, data, -, -, nodes, -⟩ :=
    schedule_eq_postOrder (run_eq_onIntegers weaving) lt_size_weaving
  obtain rfl := Except.ok.inj (scheduled.symm.trans found)
  refine ⟨scheduled, isPostOrder.symm, script, answered, ?_, ?_⟩
  · rw [data]
    decide +kernel
  · rw [nodes (by decide +kernel)]
    decide +kernel

/-! ## The slots of the records -/

/--
In every session that a run of requests leads to, the script of every node uses its cache
slots tightly.  A result is live at a record if it was written before and the record or a
later one reads it.  Each record but the last takes the first slot that holds no live
result, and the slots are as many as the results that are live at one of these records and
its own at most.
-/
theorem slots_first_fit
    (reached : (start capacity device unsupported faults config).run commands = session)
    {output : NodeId}
    (inside : output.index < session.graph.arena.size) :
    ∃ script,
      (session.step (.compile output)).1 = .ok (.script script) ∧
      script.nodes.Nodup ∧ script.nodes.length = script.length ∧
      (∀ index node, node ∈ Script.live session.graph.arena script.nodes index ↔
        node ∈ script.nodes.take index ∧
          ∃ reader, index ≤ reader ∧ Script.Reads script.records script.nodes reader node) ∧
      (∀ (index : Nat) (record : Record), index + 1 < script.length →
        script.records[index]? = some record →
        ∃ slot, record.result = .cache slot ∧
          ¬ Script.HoldsLive session.graph.arena script.nodes script.records index slot ∧
          ∀ lower < slot,
            Script.HoldsLive session.graph.arena script.nodes script.records index lower) ∧
      script.cacheSize = (Finset.range (script.length - 1)).sup
        (fun index => (Script.live session.graph.arena script.nodes index).length + 1) ∧
      script.statistics.records = script.length ∧
      script.statistics.cacheSlots = script.cacheSize ∧
      script.statistics.records =
        1 + script.statistics.cacheSlots + script.statistics.reusedSlots ∧
      script.statistics.dataSlots = script.data.length ∧
      script.statistics.dataSlots = (session.graph.arena.leavesOf output).card := by
  have valid : session.Valid := by
    rw [← reached]
    exact run_valid ..
  have ordered := valid.arena.ordered
  have proper := valid.arena.proper
  obtain ⟨script, answered, compiled⟩ := step_compile valid inside
  obtain ⟨records, cacheSlots, dataSlots⟩ := compiled.statistics
  have accepted := Script.validate_eq_ok_iff.1 (compiled.validate proper)
  refine ⟨script, answered, compiled.nodup_nodes ordered proper, accepted.2.1,
    fun index node => compiled.mem_live_iff_reads ordered proper,
    fun index record notLast present => compiled.firstFit ordered proper notLast present,
    compiled.cacheSize_eq ordered proper, records, cacheSlots, ?_, dataSlots, ?_⟩
  · rw [records, cacheSlots]
    exact compiled.length_eq ordered proper
  · rw [dataSlots, ← List.toFinset_card_of_nodup (compiled.nodup_data ordered proper)]
    refine congrArg Finset.card (Finset.ext fun leaf => ?_)
    rw [List.mem_toFinset, mem_data_iff valid.arena compiled]

/-- The script of the last node of the weaving, whose second slot is used twice. -/
def woven : Script where
  output := ⟨5⟩
  records :=
    [⟨.relu, .cache 0, .data 0, none⟩,
      ⟨.neg, .cache 1, .data 0, none⟩,
      ⟨.sub, .cache 2, .cache 0, some (.cache 1)⟩,
      ⟨.neg, .cache 1, .cache 2, none⟩,
      ⟨.sub, .output, .cache 1, some (.cache 0)⟩]
  nodes := [⟨2⟩, ⟨1⟩, ⟨3⟩, ⟨4⟩, ⟨5⟩]
  data := [⟨0⟩]
  cacheSize := 3
  statistics := ⟨5, 1, 3, 1, 0⟩

theorem step_compile_weaving :
    ((onIntegers weaving).step (.compile ⟨5⟩)).1 = .ok (.script woven) := by
  cbv

/-- The fourth record leaves the first slot alone and takes the second, which is free again. -/
theorem slots_first_fit_weaving :
    (∃ node, Script.LeftBy woven.records woven.nodes 3 (.cache 0) node ∧
        node ∈ Script.live (onIntegers weaving).graph.arena woven.nodes 3) ∧
      ¬ Script.HoldsLive (onIntegers weaving).graph.arena woven.nodes woven.records 3 1 ∧
      woven.cacheSize = (Finset.range 4).sup (fun index =>
        (Script.live (onIntegers weaving).graph.arena woven.nodes index).length + 1) ∧
      ((onIntegers weaving).graph.arena.leavesOf ⟨5⟩).card = 1 := by
  obtain ⟨script, answered, -, -, -, firstFit, peak, -, -, -, -, leaves⟩ :=
    slots_first_fit (run_eq_onIntegers weaving) lt_size_weaving
  rw [step_compile_weaving] at answered
  cases answered
  obtain ⟨slot, result, free, below⟩ := firstFit 3 ⟨.neg, .cache 1, .cache 2, none⟩
    (by decide) rfl
  cases result
  obtain ⟨node, isLive, left⟩ := below 0 Nat.one_pos
  exact ⟨⟨node, left, isLive⟩, free, peak, leaves.symm⟩

/-! ## The plan for the reverse sweep -/

/--
In every session that a run of requests leads to, the plan for the script of a node has a
record for each record of the script.  Where a record computes an operation, the planned one
applies it to operands that stand for those of the node, in their order.  So a sweep finds
the value of every node, in every workspace of the right size; that of a leaf is copied.
-/
theorem plan_follows_graph
    (reached : (start capacity device unsupported faults config).run commands = session)
    {output : NodeId}
    (inside : output.index < session.graph.arena.size) :
    ∃ script plan shape size,
      (session.step (.compile output)).1 = .ok (.script script) ∧
      Plan.ofScript script = .ok plan ∧
      plan.length = script.length ∧ script.nodes.length = script.length ∧
      (∀ (index : Nat) (planned : PlannedRecord) (node : NodeId),
        plan.records[index]? = some planned →
        script.nodes[index]? = some node →
        session.graph.arena.operation? node ≠ some .leaf →
        Script.PlannedAs session.graph.arena script index planned node) ∧
      session.graph.arena.shape? output = some shape ∧ shape.size = .ok size ∧
      ∀ coordinate < size, ∀ workspace : Trace α, workspace.Fits plan →
        ∃ trace,
          plan.sweep (script.data.map session.graph.reading).toArray coordinate workspace =
            .ok trace ∧
          ∀ (index : Nat) (node : NodeId), script.nodes[index]? = some node →
            ∃ value, trace.values[index]? = some value ∧
              (session.graph.arena.operation? node = some .leaf →
                value = Arithmetic.eval .copy (session.graph.elementOf node coordinate)
                  Arithmetic.zero) ∧
              (session.graph.arena.operation? node ≠ some .leaf ∨
                  (∀ left right : α, Arithmetic.eval .copy left right = left) →
                value = session.graph.elementOf node coordinate) := by
  have valid : session.Valid := by
    rw [← reached]
    exact run_valid ..
  have ordered := valid.arena.ordered
  have proper := valid.arena.proper
  obtain ⟨shape, size, shaped, sized⟩ := Linked.exists_size valid.toLinked inside
  obtain ⟨script, answered, compiled⟩ := step_compile valid inside
  obtain ⟨plan, planned, planOrdered, sameLength, sameData⟩ :=
    Plan.ofScript_eq_ok (compiled.validate proper)
  have accepted := Script.validate_eq_ok_iff.1 (compiled.validate proper)
  have computes : ∀ {index : Nat} {node : NodeId}, script.nodes[index]? = some node →
      session.graph.arena.operation? node ≠ some .leaf →
      session.graph.arena.isLeaf output = false := by
    intro index node among computed
    rw [← compiled.isLeaf_of_mem_nodes proper (List.mem_of_getElem? among),
      Script.isLeaf_eq_false_iff]
    exact computed
  refine ⟨script, plan, shape, size, answered, planned, sameLength, accepted.2.1, ?_, shaped,
    sized, ?_⟩
  · intro index found node present among computed
    exact compiled.plannedAs ordered proper (computes among computed) planned present among
  · intro coordinate below workspace fits
    have covers : ∀ leaf ∈ script.data, Covers (session.graph.reading leaf) coordinate := by
      intro leaf member
      rw [mem_data_iff valid.arena compiled, Arena.mem_leavesOf_iff] at member
      exact covers_reading valid shaped sized below member.1 member.2
    have readable : Readable (script.data.map session.graph.reading).toArray plan.dataLength
        coordinate := by
      intro slot within
      rw [sameData] at within
      exact ⟨session.graph.reading script.data[slot], by simp [within],
        covers _ (List.getElem_mem within)⟩
    obtain ⟨trace, swept⟩ := Plan.sweep_isOk planOrdered readable fits
    refine ⟨trace, swept, fun index node among => ?_⟩
    by_cases isLeaf : session.graph.arena.operation? node = some .leaf
    · have outputLeaf : session.graph.arena.operation? output = some .leaf := by
        rw [← Arena.isLeaf_iff, ← compiled.isLeaf_of_mem_nodes proper (List.mem_of_getElem? among),
          Arena.isLeaf_iff]
        exact isLeaf
      obtain ⟨-, nodes, -⟩ := compiled.eq_copy outputLeaf
      obtain ⟨rfl, rfl⟩ : index = 0 ∧ node = output := by
        simpa [nodes, List.getElem?_singleton, eq_comm] using among
      have covered := covers_reading valid shaped sized below .refl isLeaf
      have copied := compiled.sweep_copy proper isLeaf planned covered fits swept
      refine ⟨_, copied, fun _ => rfl, fun copies => ?_⟩
      exact (copies.resolve_left (not_not_intro isLeaf)) _ _
    · exact ⟨_, compiled.sweep_values ordered proper (computes among isLeaf) planned covers fits
        swept among, fun leaf => absurd leaf isLeaf, fun _ => rfl⟩

/-- The last record reads the fourth and the first, though a slot was used twice in between. -/
theorem plan_follows_graph_weaving :
    ∃ plan trace, Plan.ofScript woven = .ok plan ∧
      plan.records[4]? = some ⟨.sub, .record 3, some (.record 0)⟩ ∧
      Script.PlannedAs (onIntegers weaving).graph.arena woven 4
        ⟨.sub, .record 3, some (.record 0)⟩ ⟨5⟩ ∧
      plan.sweep (woven.data.map (onIntegers weaving).graph.reading).toArray 1
        (.zeros Int plan) = .ok trace ∧
      trace.values[3]? = some (-10) := by
  obtain ⟨script, plan, shape, size, answered, planned, -, -, follows, shaped, sized, sweeps⟩ :=
    plan_follows_graph (run_eq_onIntegers weaving) lt_size_weaving
  rw [step_compile_weaving] at answered
  cases answered
  have last : plan.records[4]? = some ⟨.sub, .record 3, some (.record 0)⟩ := by
    cases planned
    rfl
  obtain rfl : shape = ⟨[2]⟩ := by
    have known : (onIntegers weaving).graph.arena.shape? ⟨5⟩ = some ⟨[2]⟩ := by decide +kernel
    rw [known] at shaped
    exact (Option.some.inj shaped).symm
  obtain rfl : 2 = size := Except.ok.inj sized
  obtain ⟨trace, swept, values⟩ := sweeps 1 (by decide) (.zeros Int plan) (Trace.zeros_fits plan)
  obtain ⟨value, found, -, computed⟩ := values 3 ⟨4⟩ rfl
  have element : (onIntegers weaving).graph.elementOf ⟨4⟩ 1 = -10 := by
    cbv
  rw [computed (.inl (by decide +kernel)), element] at found
  exact ⟨plan, trace, planned, last, follows 4 _ ⟨5⟩ last rfl (by decide +kernel), swept, found⟩

end

end Graph.Session

end Elementwise
