import Mathlib
import Elementwise.Proofs.Graph.Session

/-!
# What a backward pass adds, and to which nodes

A backward pass that succeeds adds to the gradient of every node that its
output depends on, if it has one, the adjoints of that node on what the leaves
read as, and does so once.  It leaves all other gradients alone, and all
contents but that of the output, which is brought up to date.
-/

namespace Elementwise.Graph

variable
    {α : Type}
    [Element α]
    {marked after : Graph α}
    {pins : BufferId → Nat}
    {output node : NodeId}

theorem gradientReading?_eq (graph : Graph α) (node : NodeId) :
    graph.gradientReading? node =
      (graph.arena.bufferOf? node .gradient).bind graph.store.reading? := by
  unfold gradientReading? Arena.bufferOf?
  cases graph.arena.node? node <;> rfl

/-- A gradient that can be read has a buffer. -/
theorem gradientReading?_eq_some_iff
    {graph : Graph α}
    {values : Array α} :
    graph.gradientReading? node = some values ↔
      ∃ buffer, graph.arena.bufferOf? node .gradient = some buffer ∧
        graph.store.reading? buffer = some values := by
  rw [gradientReading?_eq, Option.bind_eq_some_iff]

section

variable
    {script : Script}
    {plan : Plan}
    {shape : Shape}
    {size : Nat}
    {old : Array α}
    (valid : marked.Valid pins)
    (properly : Script.Compiled marked.arena output script)
    (buffers : ∀ node part, after.arena.bufferOf? node part = marked.arena.bufferOf? node part)
    (shaped : marked.arena.shape? output = some shape)
    (sized : shape.size = .ok size)
    (depends : marked.arena.DependsOn output node)
    (reads : marked.gradientReading? node = some old)

include valid properly buffers shaped sized depends reads

/-- A node that the output depends on has one source, and its gradient is changed by the
adjoints. -/
theorem Changes.of_node
    {changed : Array α → Array α → Array α → Prop}
    (changes : marked.Changes after changed script plan size) :
    ∃ source adjoints new,
      (∀ other, script.IsSource marked.arena node other ↔ other = source) ∧
      Gradient.Adjoints plan (script.data.map marked.reading).toArray source size adjoints ∧
      after.gradientReading? node = some new ∧ changed old adjoints new ∧
      (old.size = adjoints.size ∨ old.size = 1) := by
  obtain ⟨buffer, owned, reads⟩ := gradientReading?_eq_some_iff.1 reads
  obtain ⟨source, isSource⟩ :=
    properly.exists_source valid.arena.ordered valid.arena.proper depends
  obtain ⟨_, adjoints, new, readsAgain, given, becomes, holds⟩ :=
    changes node source buffer isSource owned
  rw [reads] at readsAgain
  cases readsAgain
  have fits : old.size = adjoints.size ∨ old.size = 1 := by
    obtain ⟨own, length, shapedNode, sizedNode⟩ :=
      valid.exists_size (index_lt_of_bufferOf? owned)
    obtain ⟨values, readsAgain, values_size⟩ := valid.exists_reading owned shapedNode sizedNode
    rw [reads] at readsAgain
    cases readsAgain
    rw [given.size, values_size]
    rcases valid.arena.shape_of_dependsOn depends shaped shapedNode with rfl | single
    · rw [sized] at sizedNode
      exact .inl (Except.ok.inj sizedNode).symm
    · rw [single] at sizedNode
      exact .inr (Except.ok.inj sizedNode).symm
  refine ⟨source, adjoints, new, fun other => ⟨fun isOther => ?_, ?_⟩, given, ?_, holds, fits⟩
  · exact properly.source_unique valid.arena.ordered valid.arena.proper isOther isSource
  · rintro rfl
    exact isSource
  · exact gradientReading?_eq_some_iff.2 ⟨buffer, (buffers node .gradient).trans owned, becomes⟩

/-- The gradient of a node that the output depends on grows by the adjoints. -/
theorem Grows.increases (grows : marked.Grows after script plan size) :
    ∃ source adjoints new,
      (∀ other, script.IsSource marked.arena node other ↔ other = source) ∧
      Gradient.Adjoints plan (script.data.map marked.reading).toArray source size adjoints ∧
      after.gradientReading? node = some new ∧
      Gradient.Increases marked.config.fanIn old adjoints new := by
  obtain ⟨source, adjoints, _, only, given, becomes, rfl, fits⟩ :=
    Changes.of_node valid properly buffers shaped sized depends reads grows
  exact ⟨source, adjoints, _, only, given, becomes, Gradient.increases_grown fits⟩

end

/-- The gradient of a node that the output does not depend on stays the same. -/
theorem gradientReading?_of_not_dependsOn
    (keeps : Keeps pins
      ({ buffer | marked.arena.bufferOf? output .content = some buffer ∧
        ¬ marked.arena.IsCurrent output } ∪ gradients marked.arena output) marked after)
    (buffers : ∀ node part, after.arena.bufferOf? node part = marked.arena.bufferOf? node part)
    (valid : marked.Valid pins)
    (unrelated : ¬ marked.arena.DependsOn output node) :
    after.gradientReading? node = marked.gradientReading? node := by
  rw [gradientReading?_eq, gradientReading?_eq, buffers]
  cases owned : marked.arena.bufferOf? node .gradient with
  | none => rfl
  | some buffer =>
    rw [Option.bind_some, Option.bind_some]
    refine keeps.readings node .gradient buffer owned ?_
    rintro (⟨ownedContent, -⟩ | ⟨other, depends, ownedOther⟩)
    · exact content_ne_gradient valid ownedContent owned rfl
    · obtain ⟨rfl, -⟩ := valid.apart node other .gradient .gradient buffer owned ownedOther
      exact unrelated depends

/-- The content of a node stays the same, but for an output that was not up to date. -/
theorem Backpropagates.reading
    (backpropagates : Backpropagates pins marked after output)
    (valid : marked.Valid pins)
    (still : node ≠ output ∨ marked.arena.IsCurrent output) :
    after.reading node = marked.reading node := by
  rw [reading_eq, reading_eq, backpropagates.buffers]
  cases owned : marked.arena.bufferOf? node .content with
  | none => rfl
  | some buffer =>
    rw [Option.bind_some, Option.bind_some]
    refine congrArg (Option.getD · #[])
      (backpropagates.keeps.readings node .content buffer owned ?_)
    rintro (⟨ownedOutput, outdated⟩ | ⟨other, -, ownedGradient⟩)
    · obtain ⟨rfl, -⟩ := valid.apart node output .content .content buffer owned ownedOutput
      exact still.elim (fun different => different rfl) outdated
    · exact content_ne_gradient valid owned ownedGradient rfl

/-! ## From marking to the end of the pass -/

/-- Marking an output changes the content of no other node. -/
theorem reading_markOutput
    {graph : Graph α}
    (first : Keeps pins ∅ graph marked)
    (buffers : ∀ node part, node ≠ output →
      marked.arena.bufferOf? node part = graph.arena.bufferOf? node part)
    (still : node ≠ output ∨ ∃ buffer, graph.arena.bufferOf? node .content = some buffer) :
    marked.reading node = graph.reading node := by
  cases owned : graph.arena.bufferOf? node .content with
  | some buffer =>
    exact reading_congr first.grows owned
      (first.readings node .content buffer owned (Set.notMem_empty _))
  | none =>
    have different : node ≠ output := by
      refine still.resolve_right ?_
      rintro ⟨buffer, some⟩
      rw [owned] at some
      cases some
    rw [reading_eq, reading_eq, buffers node .content different, owned]
    rfl

/-- Marking an output keeps the gradients there are, and makes none elsewhere. -/
theorem gradientReading?_markOutput
    {graph : Graph α}
    (first : Keeps pins ∅ graph marked)
    (buffers : ∀ node part, node ≠ output →
      marked.arena.bufferOf? node part = graph.arena.bufferOf? node part)
    (still : node ≠ output ∨ ∃ buffer, graph.arena.bufferOf? node .gradient = some buffer) :
    marked.gradientReading? node = graph.gradientReading? node := by
  rw [gradientReading?_eq, gradientReading?_eq]
  cases owned : graph.arena.bufferOf? node .gradient with
  | some buffer =>
    rw [first.grows.buffer node .gradient buffer owned]
    exact first.readings node .gradient buffer owned (Set.notMem_empty _)
  | none =>
    have different : node ≠ output := by
      refine still.resolve_right ?_
      rintro ⟨buffer, some⟩
      rw [owned] at some
      cases some
    rw [buffers node .gradient different, owned]
    rfl

/-- Marking an output changes neither its script nor what it is computed from. -/
theorem compile_markOutput
    {graph : Graph α}
    {script : Script}
    (valid : graph.Valid pins)
    (outcome : markOutput output graph = .ok () marked)
    (compiles : Script.compile marked.arena output = .ok script) :
    Script.compile graph.arena output = .ok script ∧
      (∀ node source, script.IsSource marked.arena node source ↔
        script.IsSource graph.arena node source) ∧
      script.data.map marked.reading = script.data.map graph.reading := by
  obtain ⟨first, alike, -, buffers, -⟩ := (ends_markOutput valid output).of_ok outcome
  have inside : output.index < graph.arena.size := by
    rw [← alike.size]
    exact Script.lt_size_of_compile compiles
  have properly := (compiled_of_eq_ok first.valid compiles).2.2
  refine ⟨?_, fun node source => ?_, List.map_congr_left fun leaf member => ?_⟩
  · rw [← compiles]
    exact (Script.compile_extends valid.arena.ordered first.valid.arena.ordered
      alike.extension inside).symm
  · cases source with
    | data slot => exact Iff.rfl
    | record index => rw [Script.IsSource, Script.IsSource, alike.operation?]
  · rw [properly.data first.valid.arena.proper, List.mem_filter, Arena.isLeaf_iff,
      alike.operation?] at member
    exact reading_markOutput first buffers
      (.inr (valid.current leaf (valid.leaves leaf member.2)))

theorem isOutput_modify
    {arena : Arena}
    {change : Node → Node}
    (same : ∀ found, (change found).isOutput = found.isOutput)
    (before : ∃ found, arena.node? node = some found ∧ found.isOutput = true) :
    ∃ found, (arena.modify node change).node? node = some found ∧ found.isOutput = true := by
  obtain ⟨found, present, isOutput⟩ := before
  refine ⟨change found, ?_, (same found).trans isOutput⟩
  rw [Arena.node?_modify, if_pos rfl, present, Option.map_some]

omit [Element α] in
/-- A marked output counts as one. -/
theorem isOutput_markOutput
    {graph : Graph α}
    {marked : Graph α}
    (outcome : markOutput output graph = .ok () marked) :
    ∃ found, marked.arena.node? output = some found ∧ found.isOutput = true := by
  have ends : Ends (markOutput output) graph
      (fun _ after => ∃ found, after.arena.node? output = some found ∧ found.isOutput = true)
      (fun _ _ => True) := by
    unfold markOutput
    rw [ends_bind_iff]
    refine ends_node ?_ fun _ => trivial
    intro found present
    have marks : (graph.arena.modify output ({ · with isOutput := true })).node? output =
        some { found with isOutput := true } := by
      rw [Arena.node?_modify, if_pos rfl, present, Option.map_some]
    rw [ends_bind_iff, ends_modifyNode_iff]
    split
    · rw [ends_bind_iff]
      refine ends_check ?_ fun _ => trivial
      intro size lifted
      rw [ends_bind_iff, ends_onStore_iff, Store.allocate, ends_modifyGet_iff]
      refine ends_gradientIfNeeded found.needsGradient fun gradient store _ => ?_
      rw [ends_modifyNode_iff]
      refine isOutput_modify ?_ ⟨_, marks, rfl⟩
      exact fun _ => rfl
    · exact ⟨_, marks, rfl⟩
  exact ends.of_ok outcome

namespace Session

variable
    {session marked after : Session α}
    {capacity : Nat}
    {device : DeviceId}
    {unsupported : List OpCode}
    {faults : Method → Nat → Option DeviceError}
    {config : Config}
    {commands : List (Command α)}

/--
In every session that a run of requests leads to, a backward pass that is answered adds
to the gradient of each node that its output depends on, as these are after the output
is marked, the adjoints of the one record or data slot of that node on what the leaves
read as.  All other gradients stay the same, and so do the contents of all nodes, but
for an output that was not up to date, which becomes its value.
-/
theorem backward_correct
    (reached : (start capacity device unsupported faults config).run commands = session)
    (marks : (session.step (.markOutput output)).2 = marked)
    (answered : session.step (.backward output) = (.ok .done, after)) :
    ∃ script plan shape size,
      Script.compile session.graph.arena output = .ok script ∧
      Plan.ofScript script = .ok plan ∧
      session.graph.arena.shape? output = some shape ∧ shape.size = .ok size ∧
      (∃ found, marked.graph.arena.node? output = some found ∧ found.isOutput = true) ∧
      (∀ node found, marked.graph.arena.node? node = some found →
        (found.gradient?.isSome = true ↔
          found.needsGradient = true ∧ (found.operation = .leaf ∨ found.isOutput = true))) ∧
      (∀ node old, session.graph.gradientReading? node = some old →
        marked.graph.gradientReading? node = some old) ∧
      (∀ node old, session.graph.arena.DependsOn output node →
        marked.graph.gradientReading? node = some old →
        ∃ source adjoints new,
          (∀ other, script.IsSource session.graph.arena node other ↔ other = source) ∧
          Gradient.Adjoints plan (script.data.map session.graph.reading).toArray source size
            adjoints ∧
          after.graph.gradientReading? node = some new ∧
          Gradient.Increases session.graph.config.fanIn old adjoints new) ∧
      (∀ node, ¬ session.graph.arena.DependsOn output node →
        after.graph.gradientReading? node = session.graph.gradientReading? node) ∧
      (∀ node, node ≠ output ∨ session.graph.arena.IsCurrent output →
        after.graph.reading node = session.graph.reading node) ∧
      (¬ session.graph.arena.IsCurrent output →
        after.graph.reading output = session.graph.meaning output size) := by
  have valid : session.Valid := by
    rw [← reached]
    exact run_valid ..
  have tracked : session.graph.arena.Tracked := by
    rw [← reached]
    exact run_tracked capacity device unsupported faults config commands
  have passes : Ends (perform (.backward output)) session
      (fun _ after => ∃ middle, markOutput output session.graph = .ok () middle ∧
        Backpropagates (leases session.pins) middle after.graph output)
      (fun _ _ => True) := by
    show Ends ((fun _ => (Answer.done : Answer α)) <$> onGraph (backward output)) session _ _
    rw [ends_map_iff, ends_onGraph_iff]
    exact (ends_backward valid output).mono (fun _ _ done => done) fun _ _ _ => trivial
  obtain ⟨middle, outcome, backpropagates⟩ :=
    step_of_ok passes (congrArg Prod.fst answered)
  rw [congrArg Prod.snd answered] at backpropagates
  obtain rfl : middle = marked.graph := by
    rw [← marks]
    simp only [step, perform, onGraph, Functor.map, EStateM.map, outcome]
  obtain ⟨first, alike, flags, buffers, -⟩ := (ends_markOutput valid output).of_ok outcome
  obtain ⟨script, plan, shape, size, compiles, planned, shaped, sized, grows⟩ :=
    backpropagates.grows
  have inside : output.index < session.graph.arena.size := by
    rw [← alike.size]
    exact Script.lt_size_of_compile compiles
  have properly := (compiled_of_eq_ok first.valid compiles).2.2
  obtain ⟨compilesBefore, sameSource, leaves⟩ := compile_markOutput valid outcome compiles
  have depends : marked.graph.arena.DependsOn = session.graph.arena.DependsOn := alike.dependsOn
  rw [alike.shape?] at shaped
  refine ⟨script, plan, shape, size, compilesBefore, planned, shaped, sized,
    isOutput_markOutput outcome, ?_, ?_, ?_, ?_, ?_, ?_⟩
  · intro node found present
    have shapedNode : marked.graph.arena.shape? node = some found.shape := by
      rw [Arena.shape?, present, Option.map_some]
    obtain ⟨length, sizedNode⟩ := first.valid.arena.sized node found.shape shapedNode
    have trackedMarked := (tracked_markOutput session.graph tracked).of_ok outcome
    exact (trackedMarked node found present).gradient sizedNode
  · intro node old reads
    obtain ⟨buffer, owned, -⟩ := gradientReading?_eq_some_iff.1 reads
    rw [gradientReading?_markOutput first buffers (.inr ⟨buffer, owned⟩), reads]
  · intro node old dependsOn reads
    rw [← alike.shape?] at shaped
    rw [← depends] at dependsOn
    have increases := grows.increases first.valid properly backpropagates.buffers shaped sized
      dependsOn reads
    simp only [sameSource, leaves, first.config] at increases
    exact increases
  · intro node unrelated
    have different : node ≠ output := by
      rintro rfl
      exact unrelated .refl
    rw [← depends] at unrelated
    rw [gradientReading?_of_not_dependsOn backpropagates.keeps backpropagates.buffers first.valid
      unrelated,
      gradientReading?_markOutput first buffers (.inl different)]
  · intro node still
    rw [backpropagates.reading first.valid (still.imp_right (flags output).2)]
    refine reading_markOutput first buffers ?_
    rcases eq_or_ne node output with rfl | different
    · exact .inr (valid.current node (still.resolve_left (not_not_intro rfl)))
    · exact .inl different
  · intro outdated
    rw [← alike.shape?] at shaped
    rw [backpropagates.value (fun current => outdated ((flags output).1 current)) shape size shaped
      sized]
    exact first.meaning valid (fun _ _ _ _ => Set.notMem_empty _) inside

/-- The gradient of a leaf that was multiplied by seven grows by its adjoints to seven at
both elements. -/
theorem backward_correct_scaling :
    ((onIntegers scaling).step (.backward ⟨2⟩)).1 = .ok .done ∧
      ((onIntegers scaling).step (.backward ⟨2⟩)).2.graph.gradientReading? ⟨0⟩ =
        some #[7, 7] ∧
      ∃ script plan size source adjoints,
        Script.compile (onIntegers scaling).graph.arena ⟨2⟩ = .ok script ∧
        Plan.ofScript script = .ok plan ∧
        (∀ other, script.IsSource (onIntegers scaling).graph.arena ⟨0⟩ other ↔ other = source) ∧
        Gradient.Adjoints plan (script.data.map (onIntegers scaling).graph.reading).toArray source
          size adjoints ∧
        Gradient.Increases 2 #[0, 0] adjoints #[7, 7] := by
  have answered : ((onIntegers scaling).step (.backward ⟨2⟩)).1 = .ok .done := by
    cbv
  have before : ((onIntegers scaling).step (.markOutput ⟨2⟩)).2.graph.gradientReading? ⟨0⟩ =
      some #[0, 0] := by
    cbv
  have later : ((onIntegers scaling).step (.backward ⟨2⟩)).2.graph.gradientReading? ⟨0⟩ =
      some #[7, 7] := by
    cbv
  have depends : (onIntegers scaling).graph.arena.DependsOn ⟨2⟩ ⟨0⟩ :=
    .single (by decide +kernel)
  obtain ⟨script, plan, shape, size, compiles, planned, -, -, -, -, -, grows, -⟩ :=
    backward_correct (run_eq_onIntegers scaling) rfl (Prod.ext answered rfl)
  obtain ⟨source, adjoints, new, only, given, reads, increases⟩ := grows ⟨0⟩ #[0, 0] depends before
  rw [later] at reads
  cases reads
  exact ⟨answered, later, script, plan, size, source, adjoints, compiles, planned, only, given,
    increases⟩

end Session

end Elementwise.Graph
