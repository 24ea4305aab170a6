import Elementwise.Proofs.Graph.Construction
import Elementwise.Proofs.Script.Forward

/-!
# Evaluating nodes

The script of a node, run on what its leaves read as, gives the value of the
node at every coordinate.  So what a node is brought up to date with is its
value, and nothing else is written.

When the values of a leaf are replaced, exactly the nodes that depend on it
are not up to date any more.
-/

namespace Elementwise

/-! ## Scripts that do not pass anything on -/

/-- The script of a node that is not a leaf does more than passing data on. -/
theorem Script.Compiled.passedSlot?_eq_none
    {arena : Arena}
    {output : NodeId}
    {script : Script}
    (proper : ∀ node operation, arena.operation? node = some operation → operation.Proper)
    (compiled : Compiled arena output script)
    (computed : arena.operation? output ≠ some .leaf) :
    script.passedSlot? = none := by
  cases compiled with
  | leaf _ _ isLeaf => exact absurd isLeaf computed
  | @record before placement left right opcode operation leftSlot rightSlot
      order placed found parts leftAt rightAt =>
    obtain ⟨-, notCopy⟩ := proper output operation found opcode left right parts
    unfold passedSlot?
    split
    next result slot rightOperand single =>
      have last : (⟨opcode, .output, leftSlot, rightSlot⟩ : Record) ∈
          [(⟨.copy, result, .data slot, rightOperand⟩ : Record)] := by
        rw [← single]
        simp [ofPlacement, Placement.free, Placement.emit]
      have same := congrArg Record.opcode (List.mem_singleton.1 last)
      exact absurd same notCopy
    · rfl

/-- Only nodes that exist are compiled. -/
theorem Script.lt_size_of_compile
    {arena : Arena}
    {output : NodeId}
    {script : Script}
    (compiled : compile arena output = .ok script) :
    output.index < arena.size := by
  by_contra outside
  have unmarked : arena.unmarked[output.index]? = none := by
    rw [Arena.unmarked, Array.getElem?_replicate, if_neg outside]
  have failed : arena.schedule output = .error (.unknownNode output) := by
    rw [Arena.schedule, Arena.search, dif_neg, if_pos unmarked]
    rw [unmarked]
    rintro ⟨⟩
  rw [compile, failed] at compiled
  cases compiled

namespace Graph

variable
    {α : Type}
    [Element α]
    {graph : Graph α}
    {pins : BufferId → Nat}
    {output : NodeId}
    {shape : Shape}
    {size : Nat}
    {compiled : Script}

/-! ## Scripts on the contents of the leaves -/

omit [Element α] in
theorem lt_size_of_operation?
    {arena : Arena}
    {node : NodeId}
    {operation : Operation}
    (found : arena.operation? node = some operation) :
    node.index < arena.size := by
  obtain ⟨value, present, -⟩ := Option.map_eq_some_iff.1 found
  rw [← Arena.node?_isSome_iff, present]
  rfl

/-- The leaves behind a node have an element for every coordinate of the node. -/
theorem covers_reading
    (valid : graph.Valid pins)
    (shaped : graph.arena.shape? output = some shape)
    (sized : shape.size = .ok size)
    {coordinate : Nat}
    (inside : coordinate < size)
    {leaf : NodeId}
    (depends : graph.arena.DependsOn output leaf)
    (isLeaf : graph.arena.operation? leaf = some .leaf) :
    Covers (graph.reading leaf) coordinate := by
  obtain ⟨below, length, shapedLeaf, sizedLeaf⟩ :=
    valid.exists_size (lt_size_of_operation? isLeaf)
  have reads : (graph.reading leaf).size = length := by
    rw [reading_leaf valid isLeaf shapedLeaf sizedLeaf, size_meaning]
  rcases valid.arena.shape_of_dependsOn depends shaped shapedLeaf with rfl | single
  · rw [sized] at sizedLeaf
    cases sizedLeaf
    exact .inr (reads ▸ inside)
  · rw [single] at sizedLeaf
    cases sizedLeaf
    exact .inl reads

/-- The script of a node computes its value from what the leaves read as. -/
theorem evalAt_reading
    (valid : graph.Valid pins)
    (script : Script.Compiled graph.arena output compiled)
    (shaped : graph.arena.shape? output = some shape)
    (sized : shape.size = .ok size)
    {coordinate : Nat}
    (inside : coordinate < size)
    {workspace : Array α}
    (enough : compiled.cacheSize ≤ workspace.size) :
    ∃ after, after.size = workspace.size ∧
      Script.evalAt compiled.records (compiled.data.map graph.reading).toArray coordinate
        workspace =
          .ok (Script.outputElement graph.arena graph.reading coordinate output, after) :=
  script.evalAt_eq_ok valid.arena.ordered valid.arena.proper
    (fun _ depends isLeaf => covers_reading valid shaped sized inside depends isLeaf)
    enough

/-- What a run on the contents of the leaves leaves behind is the value of the node. -/
theorem eq_meaning_of_leaves
    (valid : graph.Valid pins)
    (script : Script.Compiled graph.arena output compiled)
    (shaped : graph.arena.shape? output = some shape)
    (sized : shape.size = .ok size)
    (computed : graph.arena.operation? output ≠ some .leaf)
    {values : Array α}
    (leaves : compiled.Leaves (compiled.data.map graph.reading) size values) :
    values = graph.meaning output size := by
  have passed := script.passedSlot?_eq_none valid.arena.proper computed
  rcases leaves.elements with ⟨slot, some, -⟩ | elements
  · rw [passed] at some
    cases some
  · refine Array.ext (leaves.size.trans (size_meaning ..).symm) fun index inside _ => ?_
    rw [leaves.size] at inside
    obtain ⟨workspace, next, value, enough, evaluated, found⟩ := elements index inside
    obtain ⟨after, -, evaluates⟩ := evalAt_reading valid script shaped sized inside
      (Nat.le_of_eq enough.symm)
    rw [evaluated, Script.outputElement_eq_elementOf fun isLeaf => absurd isLeaf computed]
      at evaluates
    cases evaluates
    rw [(Array.getElem?_eq_some_iff.1 found).2]
    simp only [meaning, elementOf, Array.getElem_ofFn]

/-! ## The parts of an evaluation -/

omit [Element α] in
theorem ends_content
    {node : NodeId}
    {done : BufferId → Graph α → Prop}
    {failed : Error → Graph α → Prop}
    (succeeds : ∀ buffer, graph.arena.bufferOf? node .content = some buffer → done buffer graph)
    (fails : ∀ reason, failed reason graph) :
    Ends (content node) graph done failed := by
  unfold content
  rw [ends_bind_iff]
  refine ends_node ?_ fun _ => fails _
  intro found present
  cases stored : found.content? with
  | some buffer =>
    refine succeeds buffer ?_
    rw [Arena.bufferOf?, present, Option.bind_some, stored]
  | none => exact fails _

omit [Element α] in
theorem ends_gradientBuffer
    {node : NodeId}
    {done : BufferId → Graph α → Prop}
    {failed : Error → Graph α → Prop}
    (succeeds : ∀ buffer, graph.arena.bufferOf? node .gradient = some buffer → done buffer graph)
    (fails : ∀ reason, failed reason graph) :
    Ends (gradientBuffer node) graph done failed := by
  unfold gradientBuffer
  rw [ends_bind_iff]
  refine ends_node ?_ fun _ => fails _
  intro found present
  cases stored : found.gradient? with
  | some buffer =>
    refine succeeds buffer ?_
    rw [Arena.bufferOf?, present, Option.bind_some, stored]
  | none => exact fails _

omit [Element α] in
/-- A node that has a script is there, and the script is compiled from it. -/
theorem compiled_of_eq_ok
    (valid : graph.Valid pins)
    (compiles : Script.compile graph.arena output = .ok compiled) :
    output.index < graph.arena.size ∧ Script.compile graph.arena output = .ok compiled ∧
      Script.Compiled graph.arena output compiled := by
  have inside := Script.lt_size_of_compile compiles
  obtain ⟨same, again, properly⟩ :=
    Script.compile_eq_ok valid.arena.ordered valid.arena.proper inside
  rw [compiles] at again
  cases again
  exact ⟨inside, compiles, properly⟩

/-- Every node that is there compiles. -/
theorem ends_compile (valid : graph.Valid pins) (output : NodeId) :
    Ends (compile output) graph
      (fun script after => Keeps pins ∅ graph after ∧ after.arena = graph.arena ∧
        after.store = graph.store ∧ output.index < graph.arena.size ∧
        Script.compile graph.arena output = .ok script ∧
        Script.Compiled graph.arena output script)
      (fun _ after => after = graph ∧ graph.arena.size ≤ output.index) := by
  unfold compile
  rw [ends_bind_iff, ends_get_iff, ends_bind_iff]
  cases compiles : Script.compile graph.arena output with
  | ok script =>
    have found := compiled_of_eq_ok valid compiles
    have kept : Valid { graph with scripts := graph.scripts.insert output script } pins :=
      ⟨valid.toLinked.keep found.1 compiles, valid.leaves⟩
    rw [compiles] at found
    refine ⟨⟨kept, .refl _, fun _ _ _ _ _ => rfl, ?_, fun coherent => coherent, rfl⟩, rfl, rfl,
      found⟩
    intro node buffer none owned _
    cases none.symm.trans owned
  | error reason =>
    refine ⟨rfl, Nat.le_of_not_lt fun inside => ?_⟩
    obtain ⟨script, again, -⟩ :=
      Script.compile_eq_ok valid.arena.ordered valid.arena.proper inside
    rw [compiles] at again
    cases again

/-- The script of a node is the one that is compiled, kept or not. -/
theorem ends_script (valid : graph.Valid pins) (output : NodeId) :
    Ends (script output) graph
      (fun script after => Keeps pins ∅ graph after ∧ after.arena = graph.arena ∧
        after.store = graph.store ∧ output.index < graph.arena.size ∧
        Script.compile graph.arena output = .ok script ∧
        Script.Compiled graph.arena output script)
      (fun _ after => after = graph) := by
  unfold script
  rw [ends_bind_iff, ends_get_iff]
  split
  next kept found =>
    exact ⟨.refl valid, rfl, rfl, compiled_of_eq_ok valid (valid.scripts output kept found).2⟩
  · exact (ends_compile valid output).mono (fun _ _ done => done) fun _ _ failed => failed.1

omit [Element α] in
/-- The buffers behind the data slots are those of the leaves. -/
theorem ends_dataBuffers (script : Script) :
    Ends (dataBuffers script) graph
      (fun buffers after => after = graph ∧ List.Forall₂
        (fun node buffer => graph.arena.bufferOf? node .content = some buffer) script.data buffers)
      (fun _ after => after = graph) := by
  refine ends_mapM script.data fun node _ => ?_
  exact ends_content (fun buffer owned => ⟨rfl, owned⟩) fun _ => rfl

/-- What the buffers of nodes read as is what the nodes read as. -/
theorem views_eq_readings
    {nodes : List NodeId}
    {buffers : List BufferId}
    {views : List (Array α)}
    (owned : List.Forall₂
      (fun node buffer => graph.arena.bufferOf? node .content = some buffer) nodes buffers)
    (viewed : List.Forall₂
      (fun buffer values => graph.store.reading? buffer = some values) buffers views) :
    views = nodes.map graph.reading := by
  induction owned generalizing views with
  | nil =>
    cases viewed
    rfl
  | cons first _ step =>
    cases viewed with
    | cons reads rest => rw [List.map_cons, reading_of_bufferOf? first reads, step rest]

/-! ## Bringing a node up to date -/

/-- One more node is up to date. -/
theorem isCurrent_modify_true
    {arena : Arena}
    {node : NodeId}
    (inside : node.index < arena.size)
    (other : NodeId) :
    (arena.modify node ({ · with isCurrent := true })).IsCurrent other ↔
      other = node ∨ arena.IsCurrent other :=
  Arena.isCurrent_modify_iff (fun _ => rfl) inside other

/-- The content of a node that was not up to date becomes its value. -/
theorem keeps_compute
    (valid : graph.Valid pins)
    {target : BufferId}
    {store : Store α}
    (owned : graph.arena.bufferOf? output .content = some target)
    (outdated : ¬ graph.arena.IsCurrent output)
    (shaped : graph.arena.shape? output = some shape)
    (sized : shape.size = .ok size)
    (frame : Store.Frame ∅ {target} graph.store store)
    (reads : store.reading? target = some (graph.meaning output size)) :
    Keeps pins {target} graph
      { graph with
        store := store
        arena := graph.arena.modify output ({ · with isCurrent := true }) } := by
  have alike := graph.arena.alike_modify output ({ · with isCurrent := true }) fun _ => rfl
  have buffers : ∀ node part,
      (graph.arena.modify output ({ · with isCurrent := true })).bufferOf? node part =
        graph.arena.bufferOf? node part :=
    Arena.bufferOf?_modify_of_same output fun _ => rfl
  have flags := isCurrent_modify_true (index_lt_of_bufferOf? owned)
  have framed := valid.of_frame frame fun _ absent => absent.elim
  have linked := framed.of_alike alike buffers fun node isCurrent => by
    rcases (flags node).1 isCurrent with rfl | before
    · exact ⟨target, owned⟩
    · exact valid.current node before
  have validAfter : Valid
      { graph with
        store := store
        arena := graph.arena.modify output ({ · with isCurrent := true }) } pins := by
    refine ⟨linked, fun node isLeaf => (flags node).2 (.inr (valid.leaves node ?_))⟩
    rwa [← alike.operation?]
  have grows : graph.arena.Grows
      (graph.arena.modify output ({ · with isCurrent := true })) :=
    ⟨alike.extension, fun node _ found => (congrFun alike.shape? node).trans found,
      fun node part _ found => (buffers node part).trans found⟩
  -- a content that was up to date before is not the one that is written
  have still : ∀ node buffer, graph.arena.IsCurrent node →
      graph.arena.bufferOf? node .content = some buffer →
      store.reading? buffer = graph.store.reading? buffer := by
    intro node buffer isCurrent ownedNode
    refine frame.readings buffer (Set.notMem_empty _) ?_
    rintro rfl
    obtain ⟨rfl, -⟩ := valid.apart node output .content .content buffer ownedNode owned
    exact outdated isCurrent
  refine ⟨validAfter, grows, ?_, ?_, fun coherent => ?_, rfl⟩
  · intro node part buffer _ unwritten
    exact frame.readings buffer (Set.notMem_empty _) unwritten
  · intro node buffer none owned _
    cases none.symm.trans ((buffers node .gradient).symm.trans owned)
  · refine coherent.of_contents valid validAfter grows still ?_
    intro node found length isCurrent notBefore shapedNode sizedNode
    obtain rfl := ((flags node).1 isCurrent).resolve_right notBefore
    have same := (congrFun alike.shape? node).symm.trans shapedNode
    rw [shaped] at same
    cases same
    rw [sized] at sizedNode
    cases sizedNode
    have content : ({ graph with
        store := store
        arena := graph.arena.modify node ({ · with isCurrent := true }) } : Graph α).reading node =
          graph.meaning node size :=
      reading_of_bufferOf? ((buffers node .content).trans owned) reads
    rw [content]
    refine (meaning_congr valid.arena validAfter.arena grows.extension
      (index_lt_of_bufferOf? owned) fun leaf _ isLeaf => ?_).symm
    have currentLeaf := valid.leaves leaf isLeaf
    obtain ⟨buffer, ownedLeaf⟩ := valid.current leaf currentLeaf
    exact reading_congr grows ownedLeaf (still leaf buffer currentLeaf ownedLeaf)

/-- A marked output is computed if it was not up to date, and nothing else changes. -/
structure Computes
    (pins : BufferId → Nat)
    (marked after : Graph α)
    (output : NodeId)
    (target : BufferId) : Prop where
  keeps : Keeps pins { buffer | buffer = target ∧ ¬ marked.arena.IsCurrent output } marked after
  alike : marked.arena.Alike after.arena
  buffers : ∀ node part, after.arena.bufferOf? node part = marked.arena.bufferOf? node part
  owned : marked.arena.bufferOf? output .content = some target
  current : after.arena.IsCurrent output
  value : ¬ marked.arena.IsCurrent output → ∀ shape size,
    marked.arena.shape? output = some shape → shape.size = .ok size →
    after.store.reading? target = some (marked.meaning output size)

/-- A run of the script of a node leaves the value of the node in its content buffer. -/
theorem ends_forward_meaning
    (valid : graph.Valid pins)
    {data : List BufferId}
    {target : BufferId}
    (properly : Script.Compiled graph.arena output compiled)
    (ownedData : List.Forall₂
      (fun node buffer => graph.arena.bufferOf? node .content = some buffer) compiled.data data)
    (owned : graph.arena.bufferOf? output .content = some target)
    (outdated : ¬ graph.arena.IsCurrent output)
    (shaped : graph.arena.shape? output = some shape)
    (sized : shape.size = .ok size) :
    Ends (compiled.forward data target) graph.store
      (fun _ store => Store.Frame ∅ {target} graph.store store ∧
        store.reading? target = some (graph.meaning output size))
      (fun _ store => Store.Frame ∅ ∅ graph.store store) := by
  have claimed := valid.claims output .content target shape size owned shaped sized
  refine (Script.ends_forward valid.store claimed).mono ?_ fun _ _ frame => frame
  rintro _ store ⟨frame, views, values, viewed, leaves, reads⟩
  have computed : graph.arena.operation? output ≠ some .leaf :=
    fun isLeaf => outdated (valid.leaves output isLeaf)
  rw [views_eq_readings ownedData viewed] at leaves
  rw [eq_meaning_of_leaves valid properly shaped sized computed leaves] at reads
  exact ⟨frame, reads⟩

/-- A run of the script of a node brings the node up to date. -/
theorem ends_compute
    (valid : graph.Valid pins)
    {target : BufferId}
    (owned : graph.arena.bufferOf? output .content = some target)
    (outdated : ¬ graph.arena.IsCurrent output) :
    Ends
      (do
        let compiled ← script output
        let data ← dataBuffers compiled
        onStore (compiled.forward data target)
        modifyNode output ({ · with isCurrent := true })
        return target)
      graph
      (fun answer after => answer = target ∧ Computes pins graph after output target)
      (fun _ after => Keeps pins ∅ graph after) := by
  rw [ends_bind_iff]
  refine (ends_script valid output).mono ?_ fun _ _ same => same.symm ▸ .refl valid
  rintro compiled middle ⟨first, sameArena, sameStore, inside, -, properly⟩
  rw [ends_bind_iff]
  refine (ends_dataBuffers compiled).mono ?_ ?_
  · rintro data middle ⟨rfl, ownedData⟩
    obtain ⟨shape, size, shaped, sized⟩ := first.valid.exists_size (sameArena ▸ inside)
    rw [← sameArena] at owned outdated properly
    rw [ends_bind_iff, ends_onStore_iff]
    refine (ends_forward_meaning first.valid properly ownedData owned outdated shaped
      sized).mono ?_ ?_
    · rintro _ store ⟨frame, reads⟩
      rw [ends_bind_iff, ends_modifyNode_iff, ends_pure_iff]
      have second := keeps_compute first.valid owned outdated shaped sized frame reads
      have alike := middle.arena.alike_modify output ({ · with isCurrent := true }) fun _ => rfl
      refine ⟨rfl, (first.trans_empty second).mono ?_, sameArena ▸ alike, ?_, sameArena ▸ owned,
        ?_, fun _ other length shapedOther sizedOther => ?_⟩
      · rintro buffer rfl
        exact ⟨rfl, sameArena ▸ outdated⟩
      · intro node part
        rw [← sameArena]
        exact Arena.bufferOf?_modify_of_same output (by exact fun _ => rfl) node part
      · exact (isCurrent_modify_true (index_lt_of_bufferOf? owned) output).2 (.inl rfl)
      · rw [sameArena, shapedOther] at shaped
        cases shaped
        rw [sized] at sizedOther
        cases sizedOther
        rw [reads]
        exact congrArg _ (first.meaning valid (fun _ _ _ _ => Set.notMem_empty _)
          (sameArena ▸ index_lt_of_bufferOf? owned))
    · rintro _ store frame
      exact first.trans_empty (.of_frame_empty first.valid frame)
  · rintro _ _ rfl
    exact first

/-- Bringing a node up to date marks it as an output and computes it. -/
theorem ends_materialize (valid : graph.Valid pins) (output : NodeId) :
    Ends (materialize output) graph
      (fun target after => ∃ marked, markOutput output graph = .ok () marked ∧
        Computes pins marked after output target)
      (fun _ after => Keeps pins ∅ graph after) := by
  unfold materialize
  rw [ends_bind_iff]
  refine (ends_markOutput valid output).outcome.mono ?_ fun _ _ keeps => keeps
  rintro _ marked ⟨outcome, first, -⟩
  rw [ends_bind_iff]
  refine ends_content ?_ fun _ => first
  intro target owned
  rw [ends_bind_iff]
  refine ends_node ?_ fun _ => first
  intro found present
  split
  next upToDate =>
    have current : marked.arena.IsCurrent output := ⟨found, present, upToDate⟩
    exact ⟨marked, outcome, (Keeps.refl first.valid).mono (Set.empty_subset _), .refl _,
      fun _ _ => rfl, owned, current, fun outdated => absurd current outdated⟩
  next notUpToDate =>
    have outdated : ¬ marked.arena.IsCurrent output :=
      fun current => notUpToDate ((Arena.isCurrent_iff present).1 current)
    refine (ends_compute first.valid owned outdated).mono ?_ ?_
    · rintro answer after ⟨rfl, computes⟩
      exact ⟨marked, outcome, computes⟩
    · exact fun _ after second => first.trans_empty second

/-- The values of the nodes are the same before and after. -/
theorem Computes.meaning
    {marked after : Graph α}
    {target : BufferId}
    (computes : Computes pins marked after output target)
    (valid : marked.Valid pins)
    {node : NodeId}
    (inside : node.index < marked.arena.size) :
    after.meaning node size = marked.meaning node size := by
  refine computes.keeps.meaning valid ?_ inside
  rintro leaf buffer isLeaf owned ⟨rfl, outdated⟩
  obtain ⟨rfl, -⟩ := valid.apart leaf output .content .content buffer owned computes.owned
  exact outdated (valid.leaves leaf isLeaf)

/-- What a computed node reads as is its value from before. -/
theorem Computes.reads
    {marked after : Graph α}
    {target : BufferId}
    {values : Array α}
    (computes : Computes pins marked after output target)
    (first : Keeps pins ∅ graph marked)
    (valid : graph.Valid pins)
    (coherent : graph.Coherent)
    (shaped : graph.arena.shape? output = some shape)
    (sized : shape.size = .ok size)
    (reads : after.store.reading? target = some values) :
    values = graph.meaning output size := by
  have inside : output.index < graph.arena.size := by
    obtain ⟨found, present, -⟩ := Option.map_eq_some_iff.1 shaped
    rw [← Arena.node?_isSome_iff, present]
    rfl
  have coherentAfter := computes.keeps.coherent (first.coherent coherent)
  have shapedAfter := computes.keeps.grows.shape _ _ (first.grows.shape _ _ shaped)
  calc values
      = after.reading output :=
        (reading_of_bufferOf? ((computes.buffers output .content).trans computes.owned) reads).symm
    _ = after.meaning output size :=
        coherentAfter output shape size computes.current shapedAfter sized
    _ = marked.meaning output size :=
        computes.meaning first.valid (first.grows.extension.lt_size inside)
    _ = graph.meaning output size :=
        first.meaning valid (fun _ _ _ _ => Set.notMem_empty _) inside

/-- In a coherent graph, the answer is the value of the node. -/
def Answers (graph : Graph α) (output : NodeId) (values : Array α) : Prop :=
  ∃ shape size, graph.arena.shape? output = some shape ∧ shape.size = .ok size ∧
    (graph.Coherent → values = graph.meaning output size)

/-- A node that is brought up to date and read answers its value. -/
theorem ends_readOutput (valid : graph.Valid pins) (output : NodeId) :
    Ends
      (do
        let target ← materialize output
        onStore (Store.read target))
      graph
      (fun values after => (∃ written, Keeps pins written graph after) ∧
        graph.Answers output values)
      (fun _ after => ∃ written, Keeps pins written graph after) := by
  rw [ends_bind_iff]
  refine (ends_materialize valid output).mono ?_ fun _ _ keeps => ⟨∅, keeps⟩
  rintro target middle ⟨marked, outcome, computes⟩
  obtain ⟨first, alike, -⟩ := (ends_markOutput valid output).of_ok outcome
  have both := first.trans_empty computes.keeps
  obtain ⟨shape, size, shaped, sized⟩ :=
    valid.exists_size (alike.size ▸ index_lt_of_bufferOf? computes.owned)
  rw [ends_onStore_iff]
  refine (Store.ends_read computes.keeps.valid.store).mono ?_ ?_
  · rintro values store ⟨frame, reads⟩
    have last := both.trans (.of_frame_empty both.valid frame)
    exact ⟨⟨_, last⟩, shape, size, shaped, sized, fun coherent =>
      computes.reads first valid coherent shaped sized reads⟩
  · rintro _ store frame
    exact ⟨_, both.trans (.of_frame_empty both.valid frame)⟩

theorem ends_value (valid : graph.Valid pins) (output : NodeId) :
    Ends (value output) graph
      (fun values after => (∃ written, Keeps pins written graph after) ∧
        graph.Answers output values)
      (fun _ after => ∃ written, Keeps pins written graph after) :=
  ends_readOutput valid output

theorem ends_valueAt
    (valid : graph.Valid pins)
    (output : NodeId)
    (index : List Nat) :
    Ends (valueAt output index) graph
      (fun value after => (∃ written, Keeps pins written graph after) ∧
        ∃ shape flat values, graph.arena.shape? output = some shape ∧
          shape.flatten index = .ok flat ∧ values[flat]? = some value ∧
          graph.Answers output values)
      (fun _ after => ∃ written, Keeps pins written graph after) := by
  unfold valueAt
  rw [ends_bind_iff]
  refine ends_node ?_ fun _ => ⟨∅, .refl valid⟩
  intro found present
  have shaped : graph.arena.shape? output = some found.shape := by
    rw [Arena.shape?, present, Option.map_some]
  rw [ends_bind_iff]
  refine ends_check ?_ fun _ => ⟨∅, .refl valid⟩
  intro flat flattened
  have read := ends_readOutput valid output
  rw [ends_bind_iff] at read ⊢
  refine read.mono ?_ fun _ _ keeps => keeps
  intro target middle read
  rw [ends_bind_iff]
  refine read.mono ?_ fun _ _ keeps => keeps
  rintro values after ⟨keeps, answers⟩
  cases element : values[flat]? with
  | some value =>
    exact ⟨keeps, found.shape, flat, values, shaped, flattened, element, answers⟩
  | none => exact keeps

/-! ## New values for a leaf -/

/-- What is downstream of a leaf is not up to date any more, and nothing else changes. -/
theorem isCurrent_invalidate
    {arena : Arena}
    (sound : arena.Sound)
    (source node : NodeId) :
    (arena.invalidate source).IsCurrent node ↔
      arena.IsCurrent node ∧ ¬ arena.Downstream source node := by
  have marked := Arena.reach_users_iff sound source node
  unfold Arena.IsCurrent
  rw [Arena.node?_invalidate]
  split
  next reached =>
    have downstream := marked.1 reached
    simp [downstream]
  next unreached =>
    have kept : ¬ arena.Downstream source node := fun downstream =>
      unreached (marked.2 downstream)
    simp [kept]

theorem bufferOf?_invalidate
    {arena : Arena}
    (source node : NodeId)
    (part : Part) :
    (arena.invalidate source).bufferOf? node part = arena.bufferOf? node part := by
  have same : ∀ read : Node → Option BufferId,
      (∀ found : Node, read { found with isCurrent := false } = read found) →
        ((arena.invalidate source).node? node).bind read = (arena.node? node).bind read := by
    intro read kept
    rw [Arena.node?_invalidate, Option.bind_map]
    refine Option.bind_congr fun found _ => ?_
    rw [Function.comp_apply]
    split
    · exact kept found
    · rfl
  cases part with
  | content => exact same Node.content? fun _ => rfl
  | gradient => exact same Node.gradient? fun _ => rfl

/-- Nothing is upstream of a leaf. -/
theorem not_downstream_of_leaf
    {arena : Arena}
    {source node : NodeId}
    (isLeaf : arena.operation? node = some .leaf) :
    ¬ arena.Downstream source node := by
  rintro ⟨depends, different⟩
  rcases Relation.ReflTransGen.cases_head depends with same | ⟨operand, isOperand, -⟩
  · exact different same
  · have none : arena.operands node = [] := by
      rw [Arena.operands, isLeaf]
      rfl
    have member : operand ∈ arena.operands node := isOperand
    rw [none] at member
    cases member

/-- When a leaf is written and what is downstream of it invalidated, nothing stale is left. -/
theorem keeps_overwrite
    (valid : graph.Valid pins)
    {leaf : NodeId}
    {target : BufferId}
    {store : Store α}
    (isLeaf : graph.arena.operation? leaf = some .leaf)
    (owned : graph.arena.bufferOf? leaf .content = some target)
    (frame : Store.Frame ∅ {target} graph.store store) :
    Keeps pins {target} graph
      { graph with store := store, arena := graph.arena.invalidate leaf } := by
  have alike : graph.arena.Alike (graph.arena.invalidate leaf) := Arena.alike_invalidate leaf
  have buffers : ∀ node part,
      (graph.arena.invalidate leaf).bufferOf? node part = graph.arena.bufferOf? node part :=
    bufferOf?_invalidate leaf
  have flags := isCurrent_invalidate valid.arena leaf
  have framed := valid.of_frame frame fun _ absent => absent.elim
  have linked := framed.of_alike alike buffers fun node isCurrent =>
    valid.current node ((flags node).1 isCurrent).1
  have validAfter : Valid
      { graph with store := store, arena := graph.arena.invalidate leaf } pins := by
    refine ⟨linked, fun node nodeIsLeaf => ?_⟩
    have before : graph.arena.operation? node = some .leaf := by
      rwa [← alike.operation?]
    exact (flags node).2 ⟨valid.leaves node before, not_downstream_of_leaf before⟩
  have grows : graph.arena.Grows (graph.arena.invalidate leaf) :=
    ⟨alike.extension, fun node _ found => (congrFun alike.shape? node).trans found,
      fun node part _ found => (buffers node part).trans found⟩
  have still : ∀ node buffer, node ≠ leaf →
      graph.arena.bufferOf? node .content = some buffer →
      store.reading? buffer = graph.store.reading? buffer := by
    intro node buffer different ownedNode
    refine frame.readings buffer (Set.notMem_empty _) ?_
    rintro rfl
    exact different (valid.apart node leaf .content .content buffer ownedNode owned).1
  refine ⟨validAfter, grows, ?_, ?_, fun coherent => ?_, rfl⟩
  · intro node part buffer _ unwritten
    exact frame.readings buffer (Set.notMem_empty _) unwritten
  · intro node buffer none owned _
    cases none.symm.trans ((buffers node .gradient).symm.trans owned)
  · intro node shape size isCurrent shaped sized
    obtain ⟨before, upstream⟩ := (flags node).1 isCurrent
    by_cases same : node = leaf
    · subst same
      exact reading_leaf validAfter ((congrFun alike.operation? node).trans isLeaf) shaped sized
    · obtain ⟨buffer, ownedNode⟩ := valid.current node before
      have shapedBefore : graph.arena.shape? node = some shape := by
        rwa [← alike.shape?]
      rw [reading_congr grows ownedNode (still node buffer same ownedNode),
        coherent node shape size before shapedBefore sized]
      refine (meaning_congr valid.arena validAfter.arena grows.extension
        (index_lt_of_bufferOf? ownedNode) fun other depends otherIsLeaf => ?_).symm
      have different : other ≠ leaf := by
        rintro rfl
        exact upstream ⟨depends, same⟩
      obtain ⟨otherBuffer, ownedOther⟩ := valid.current other (valid.leaves other otherIsLeaf)
      exact reading_congr grows ownedOther (still other otherBuffer different ownedOther)

omit [Element α] in
theorem operation?_of_isLeaf
    {arena : Arena}
    {node : NodeId}
    {found : Node}
    (present : arena.node? node = some found)
    (isLeaf : found.operation.isLeaf = true) :
    arena.operation? node = some .leaf := by
  rw [Arena.operation?, present, Option.map_some, of_decide_eq_true isLeaf]

/-- The content of a leaf is written, and what is downstream of it is out of date. -/
structure Overwrites
    (before : Graph α)
    (leaf : NodeId)
    (values : Array α)
    (after : Graph α) : Prop where
  isLeaf : before.arena.operation? leaf = some .leaf
  arena : after.arena = before.arena.invalidate leaf
  scripts : after.scripts = before.scripts
  config : after.config = before.config
  written : ∃ content, before.arena.bufferOf? leaf .content = some content ∧
    Store.Frame ∅ {content} before.store after.store ∧
    after.store.reading? content = some values

/-- The key under which a leaf is known as a constant, if it is, is forgotten. -/
structure Forgets (before : Graph α) (leaf : NodeId) (after : Graph α) : Prop where
  interned : ∀ key : Key, after.interned[key]? =
    if before.constants.get? leaf = some key then none else before.interned[key]?
  constants : ∀ node, after.constants.get? node =
    if node = leaf then none else before.constants.get? node

/-- Buffers may have moved between the tiers, and nothing else happened. -/
def Rests (before after : Graph α) : Prop :=
  ∃ store, Store.Frame ∅ ∅ before.store store ∧ after = { before with store := store }

theorem Rests.refl (valid : graph.Valid pins) : graph.Rests graph :=
  ⟨graph.store, .refl valid.store, rfl⟩

theorem Rests.keeps
    {after : Graph α}
    (valid : graph.Valid pins)
    (rests : graph.Rests after) :
    Keeps pins ∅ graph after := by
  obtain ⟨store, frame, rfl⟩ := rests
  exact .of_frame_empty valid frame

/-- Only the content of the leaf is written. -/
theorem Overwrites.keeps
    {after : Graph α}
    {leaf : NodeId}
    {values : Array α}
    (valid : graph.Valid pins)
    (overwrites : graph.Overwrites leaf values after) :
    ∃ content, graph.arena.bufferOf? leaf .content = some content ∧
      Keeps pins {content} graph after := by
  obtain ⟨isLeaf, arena, scripts, config, content, owned, frame, -⟩ := overwrites
  have keeps := keeps_overwrite valid isLeaf owned frame
  have tables := keeps.trans (keeps_tables keeps.valid after.interned after.constants)
  rw [Set.union_empty, ← arena, ← scripts, ← config] at tables
  exact ⟨content, owned, tables⟩

/-- New values overwrite a leaf, which is no constant any more; or nothing changes. -/
theorem ends_setValue_overwrites
    (valid : graph.Valid pins)
    (leaf : NodeId)
    (values : Array α) :
    Ends (setValue leaf values) graph
      (fun _ after => graph.Overwrites leaf values after ∧ graph.Forgets leaf after)
      (fun _ after => graph.Rests after) := by
  unfold setValue
  rw [ends_bind_iff]
  refine ends_node ?_ fun _ => .refl valid
  intro found present
  dsimp only
  split
  · exact .refl valid
  next leafy =>
    have isLeaf := operation?_of_isLeaf present (by simpa using leafy)
    rw [ends_bind_iff]
    refine ends_content ?_ fun _ => .refl valid
    intro content owned
    rw [ends_bind_iff, ends_onStore_iff]
    refine (Store.ends_write valid.store values).mono ?_ fun _ store frame => ⟨store, frame, rfl⟩
    rintro _ store ⟨frame, reads, -⟩
    have written : ∃ content, graph.arena.bufferOf? leaf .content = some content ∧
        Store.Frame ∅ {content} graph.store store ∧ store.reading? content = some values :=
      ⟨content, owned, frame, reads⟩
    rw [ends_bind_iff, ends_get_iff]
    split
    next key known =>
      have known : graph.constants.get? leaf = some key := known
      rw [ends_bind_iff, ends_modify_iff, ends_modify_iff]
      refine ⟨⟨isLeaf, rfl, rfl, rfl, written⟩, fun other => ?_, fun node => ?_⟩
      · rw [known]
        show (graph.interned.erase key)[other]? = _
        rw [Sorted.getElem?_erase]
        simp only [Option.some.injEq]
      · show (graph.constants.erase leaf).get? node = _
        rw [Table.get?_erase]
        simp only [eq_comm]
    next unknown =>
      have unknown : graph.constants.get? leaf = none := unknown
      rw [ends_modify_iff]
      refine ⟨⟨isLeaf, rfl, rfl, rfl, written⟩, fun other => ?_, fun node => ?_⟩
      · rw [unknown]
        rfl
      · split
        next same => exact same ▸ unknown
        · rfl

theorem ends_setValue
    (valid : graph.Valid pins)
    (leaf : NodeId)
    (values : Array α) :
    Ends (setValue leaf values) graph
      (fun _ after => ∃ written, Keeps pins written graph after)
      (fun _ after => ∃ written, Keeps pins written graph after) := by
  refine (ends_setValue_overwrites valid leaf values).mono ?_ fun _ _ rests =>
    ⟨∅, rests.keeps valid⟩
  rintro _ after ⟨overwrites, -⟩
  obtain ⟨content, -, keeps⟩ := overwrites.keeps valid
  exact ⟨{content}, keeps⟩

/-! ## Reductions -/

/-- The script of a node is a source of what it computes, as long as the layout of its shape. -/
theorem yields_evalAt
    (valid : graph.Valid pins)
    {data : List BufferId}
    {layout : AxisLayout}
    {axis : Nat}
    (properly : Script.Compiled graph.arena output compiled)
    (ownedData : List.Forall₂
      (fun node buffer => graph.arena.bufferOf? node .content = some buffer) compiled.data data)
    (shaped : graph.arena.shape? output = some shape)
    (laidOut : AxisLayout.ofShape shape axis = .ok layout)
    (views : List (Array α))
    (viewed : List.Forall₂
      (fun buffer values => graph.store.reading? buffer = some values) data views) :
    Source.Yields
      (fun index inputs workspace => Script.evalAt compiled.records inputs index workspace)
      views.toArray (·.size = compiled.cacheSize) layout.count
      (fun index => Script.outputElement graph.arena graph.reading index output) := by
  intro index workspace value next enough evaluated
  obtain ⟨size, sized⟩ := valid.arena.sized output shape shaped
  refine ⟨fun inside => ?_, (Script.size_of_evalAt evaluated).trans enough⟩
  rw [AxisLayout.count_ofShape laidOut sized] at inside
  rw [views_eq_readings ownedData viewed] at evaluated
  obtain ⟨after, -, evaluates⟩ := evalAt_reading valid properly shaped sized inside
    (Nat.le_of_eq enough.symm)
  exact (Prod.mk.inj (Except.ok.inj (evaluated.symm.trans evaluates))).1

section

variable
    {store : Store α}
    (valid : store.Valid)
    {data : List BufferId}
    {layout : AxisLayout}
    {fanIn : Nat}
    {reduction : Reduction}
    (get : Nat → α)
    (yields : ∀ views,
      List.Forall₂ (fun buffer values => store.reading? buffer = some values) data views →
      Source.Yields
        (fun index inputs workspace => Script.evalAt compiled.records inputs index workspace)
        views.toArray (·.size = compiled.cacheSize) layout.count get)

include valid yields

/-- A reduction of a script under leases of its data makes a buffer for its result. -/
theorem ends_reduceLeased :
    Ends
      (Store.withLeases data do
        layout.treeReduce fanIn reduction.combine (← data.mapM Store.blockOf)
          (zeros α compiled.cacheSize) (fun index inputs workspace =>
            Script.evalAt compiled.records inputs index workspace))
      store
      (fun result after => Store.Made
        (layout.reduced.Holds fun before behind =>
          treeFold reduction.combine (max fanIn Config.minFanIn)
            (layout.entries get before behind))
        store after result)
      (fun _ after => Store.Frame ∅ ∅ store after) := by
  have initial : (zeros α compiled.cacheSize).size = compiled.cacheSize := Array.size_replicate
  refine (Store.ends_withLeases (fun result => {result}) (fun _ => ∅)
    (fun result inner => result ∉ data ∧ (∃ length, inner.claim? result = some (.fresh length)) ∧
      ∃ values, inner.reading? result = some values ∧
        layout.reduced.Holds (fun before behind =>
          treeFold reduction.combine (max fanIn Config.minFanIn)
            (layout.entries get before behind)) values)
    valid ?_).mono ?_ fun _ _ frame => frame
  · intro inside leased
    rw [ends_bind_iff]
    refine (Store.ends_mapM_blockOf leased fun _ member => member).mono ?_ fun _ _ frame => frame
    rintro inputs inside ⟨rfl, pinned⟩
    rw [← leased.readings] at yields
    refine (AxisLayout.ends_treeReduce (·.size = compiled.cacheSize) leased.valid initial
      pinned yields).mono ?_ fun _ _ frame => frame
    rintro result after made
    refine ⟨made.frame, ?_, ?_, made.fresh, made.reads⟩
    · rintro _ rfl
      exact made.absent
    · intro member
      obtain ⟨block, stored⟩ := leased.onAccelerator result member
      obtain ⟨claim, claimed⟩ := Store.exists_claim stored
      rw [made.absent] at claimed
      cases claimed
  · rintro result after ⟨frame, absent, inner, released, outside, ⟨length, claimed⟩, values, reads,
      holds⟩
    refine ⟨absent result rfl, frame, ⟨length, ?_⟩, values, ?_, holds⟩
    · exact (released.claims result outside).trans claimed
    · rw [released.reading?, reads]

/-- A reduction of a script leaves no trace but its answer. -/
theorem ends_reduceScript :
    Ends (reduceScript compiled data layout fanIn reduction) store
      (fun values after => Store.Frame ∅ ∅ store after ∧
        layout.reduced.Holds (fun before behind =>
          treeFold reduction.combine (max fanIn Config.minFanIn)
            (layout.entries get before behind)) values)
      (fun _ after => Store.Frame ∅ ∅ store after) := by
  unfold reduceScript
  rw [ends_bind_iff]
  exact (ends_reduceLeased valid get yields).mono (fun _ _ made => Store.ends_take made)
    fun _ _ frame => frame

end

/-- No node changes, nor what any buffer reads as. -/
structure Untouched (pins : BufferId → Nat) (before after : Graph α) : Prop where
  keeps : Keeps pins ∅ before after
  arena : after.arena = before.arena
  frame : Store.Frame ∅ ∅ before.store after.store

theorem Untouched.refl (valid : graph.Valid pins) : Untouched pins graph graph :=
  ⟨.refl valid, rfl, .refl valid.store⟩

theorem Untouched.onStore
    {middle : Graph α}
    {store : Store α}
    (first : Untouched pins graph middle)
    (frame : Store.Frame ∅ ∅ middle.store store) :
    Untouched pins graph { middle with store := store } where
  keeps := first.keeps.trans_empty (.of_frame_empty first.keeps.valid frame)
  arena := first.arena
  frame := first.frame.trans_empty frame

/--
What a reduction of a node answers: the fold in passes of what the script of the node
computes along the axis, and the identity if there is nothing to read.
-/
structure Reduces
    (graph : Graph α)
    (output : NodeId)
    (axis : Option Nat)
    (reduction : Reduction)
    (along : Nat)
    (layout : AxisLayout)
    (reduced : Shape)
    (totals : Array α) : Prop where
  shape : ∃ shape, graph.arena.shape? output = some shape ∧ reducedAxis shape axis = .ok along ∧
    AxisLayout.ofShape shape along = .ok layout ∧ shape.withDim along 1 = .ok reduced
  totals : (reducesNothing layout = .ok true ∧ ∃ size, reduced.size = .ok size ∧
      totals = Array.replicate size reduction.identity) ∨
    (reducesNothing layout = .ok false ∧
      layout.reduced.Holds (fun before behind =>
        treeFold reduction.combine (max graph.config.fanIn Config.minFanIn)
          (layout.entries (fun index =>
            Script.outputElement graph.arena graph.reading index output) before behind)) totals)

/-- A reduction changes no reading and answers with the fold of what the script computes. -/
theorem ends_reduce_folds
    (valid : graph.Valid pins)
    (output : NodeId)
    (axis : Option Nat)
    (reduction : Reduction) :
    Ends (reduce output axis reduction) graph
      (fun answer after => Untouched pins graph after ∧ ∃ along layout,
        Reduces graph output axis reduction along layout answer.1 answer.2)
      (fun _ after => Untouched pins graph after) := by
  have unchanged := Untouched.refl valid
  unfold reduce
  rw [ends_bind_iff]
  refine ends_node ?_ fun _ => unchanged
  intro found present
  have shaped : graph.arena.shape? output = some found.shape := by
    rw [Arena.shape?, present, Option.map_some]
  dsimp only
  rw [ends_bind_iff]
  refine ends_check ?_ fun _ => unchanged
  intro along onAxis
  rw [ends_bind_iff]
  refine ends_check ?_ fun _ => unchanged
  intro layout laidOut
  rw [ends_bind_iff]
  refine ends_check ?_ fun _ => unchanged
  intro reduced resized
  rw [ends_bind_iff]
  refine ends_check ?_ fun _ => unchanged
  intro nothing lifted
  have decided := Size.lift_eq_ok lifted
  split
  next none =>
    rw [ends_bind_iff]
    refine ends_check ?_ fun _ => unchanged
    intro size counted
    exact ⟨unchanged, along, layout, ⟨found.shape, shaped, onAxis, laidOut, resized⟩,
      .inl ⟨none ▸ decided, size, Size.lift_eq_ok counted, rfl⟩⟩
  next some =>
    rw [ends_bind_iff]
    refine (ends_script valid output).mono ?_ ?_
    · rintro compiled middle ⟨first, sameArena, sameStore, inside, -, properly⟩
      have untouched : Untouched pins graph middle :=
        ⟨first, sameArena, sameStore.symm ▸ .refl valid.store⟩
      have sameReading : middle.reading = graph.reading := by
        funext node
        rw [reading, reading, sameArena, sameStore]
      have shapedMiddle : middle.arena.shape? output = .some found.shape := by
        rw [sameArena, shaped]
      rw [← sameArena] at properly
      rw [ends_bind_iff, ends_onStore_iff]
      refine Script.ends_checkSupported.mono ?_ ?_
      · rintro _ _ rfl
        rw [ends_bind_iff]
        refine (ends_dataBuffers compiled).mono ?_ ?_
        · rintro data middle ⟨rfl, ownedData⟩
          rw [ends_bind_iff, ends_get_iff, ends_bind_iff, ends_onStore_iff]
          refine (ends_reduceScript first.valid.store (fun index =>
            Script.outputElement middle.arena middle.reading index output)
            (yields_evalAt first.valid properly ownedData shapedMiddle laidOut)).mono ?_ ?_
          · rintro totals store ⟨frame, holds⟩
            rw [sameArena, sameReading, first.config] at holds
            refine ⟨untouched.onStore frame, along, layout,
              ⟨found.shape, shaped, onAxis, laidOut, resized⟩, .inr ⟨?_, holds⟩⟩
            rw [decided, Bool.eq_false_of_not_eq_true some]
          · rintro _ store frame
            exact untouched.onStore frame
        · rintro _ _ rfl
          exact untouched
      · rintro _ _ rfl
        exact untouched
    · rintro _ _ rfl
      exact unchanged

/-- A reduction changes no reading. -/
theorem ends_reduce
    (valid : graph.Valid pins)
    (output : NodeId)
    (axis : Option Nat)
    (reduction : Reduction) :
    Ends (reduce output axis reduction) graph
      (fun _ after => Keeps pins ∅ graph after)
      (fun _ after => Keeps pins ∅ graph after) :=
  (ends_reduce_folds valid output axis reduction).mono
    (fun _ _ done => done.1.keeps) fun _ _ failed => failed.keeps

end Graph

end Elementwise
