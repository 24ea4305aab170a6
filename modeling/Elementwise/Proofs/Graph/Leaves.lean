import Elementwise.Proofs.Graph.Resumption
import Elementwise.Proofs.Graph.Standing

/-!
# Values that leaves keep

A leaf holds the values that it was given.  What is asked of a graph may mark and
compute other nodes, add to gradients and move buffers about, whether it succeeds or
fails; a leaf reads the same afterwards.  Only a request that gives this leaf new
values, gives up the contents of a buffer, or removes all nodes is different.
-/

namespace Elementwise.Graph

variable
    {α : Type}
    [Element α]
    {graph before middle after : Graph α}
    {pins : BufferId → Nat}
    {written : Set BufferId}
    {output leaf : NodeId}

/-- Every leaf reads as it did. -/
def Spares (before after : Graph α) : Prop :=
  ∀ leaf, before.arena.operation? leaf = some .leaf → after.reading leaf = before.reading leaf

theorem Spares.refl (graph : Graph α) : graph.Spares graph :=
  fun _ _ => rfl

theorem Spares.trans
    (first : before.Spares middle)
    (second : middle.Spares after)
    (extension : before.arena.Extends middle.arena) :
    before.Spares after := by
  intro leaf isLeaf
  have inside := lt_size_of_operation? isLeaf
  rw [second leaf ((extension leaf inside).trans isLeaf), first leaf isLeaf]

/-- What is written is the content of no leaf. -/
theorem Keeps.spares
    (keeps : Keeps pins written before after)
    (valid : before.Valid pins)
    (unwritten : ∀ leaf content, before.arena.operation? leaf = some .leaf →
      before.arena.bufferOf? leaf .content = some content → content ∉ written) :
    before.Spares after := by
  intro leaf isLeaf
  obtain ⟨content, owned⟩ := valid.current leaf (valid.leaves leaf isLeaf)
  exact reading_congr keeps.grows owned
    (keeps.readings leaf .content content owned (unwritten leaf content isLeaf owned))

theorem Keeps.spares_of_empty
    (keeps : Keeps pins ∅ before after)
    (valid : before.Valid pins) :
    before.Spares after :=
  keeps.spares valid fun _ _ _ _ => Set.notMem_empty _

theorem Resumes.spares
    (resumes : before.Resumes after)
    (valid : before.Valid pins) :
    before.Spares after :=
  fun _ isLeaf => resumes.reading_leaf valid isLeaf

/-- No gradient that is written is the content of a leaf. -/
theorem Keeps.spares_of_gradients
    (keeps : Keeps pins written before after)
    (valid : before.Valid pins)
    (gradients : ∀ buffer ∈ written, ∃ node,
      before.arena.bufferOf? node .gradient = some buffer) :
    before.Spares after := by
  refine keeps.spares valid fun leaf content _ owned member => ?_
  obtain ⟨node, ownedGradient⟩ := gradients content member
  exact content_ne_gradient valid owned ownedGradient rfl

/-- A leaf that is overwritten is the only one to read differently. -/
theorem Overwrites.reading_other
    {values : Array α}
    (overwrites : before.Overwrites leaf values after)
    (valid : before.Valid pins)
    {other : NodeId}
    (different : other ≠ leaf)
    (isLeaf : before.arena.operation? other = some .leaf) :
    after.reading other = before.reading other := by
  obtain ⟨content, owned, keeps⟩ := overwrites.keeps valid
  obtain ⟨buffer, ownedOther⟩ := valid.current other (valid.leaves other isLeaf)
  refine reading_congr keeps.grows ownedOther
    (keeps.readings other .content buffer ownedOther ?_)
  rintro rfl
  exact different (valid.apart other leaf .content .content buffer ownedOther owned).1

/-- A graph that was evaluated, after which gradients of what the output depends on were written. -/
def Trains
    (pins : BufferId → Nat)
    (output : NodeId)
    (before after : Graph α) : Prop :=
  ∃ middle, before.Resumes middle ∧ middle.Valid pins ∧
    Keeps pins (gradients middle.arena output) middle after ∧ after.arena = middle.arena

/-- A backward pass evaluates and writes gradients, wherever it stops. -/
theorem ends_backward_trains
    (valid : graph.Valid pins)
    (output : NodeId) :
    Ends (backward output) graph
      (fun _ after => Trains pins output graph after)
      (fun _ after => Trains pins output graph after) := by
  have evaluated : ∀ {after : Graph α}, graph.Resumes after → after.Valid pins →
      Trains pins output graph after :=
    fun resumes validAfter => ⟨_, resumes, validAfter,
      (Keeps.refl validAfter).mono (Set.empty_subset _), rfl⟩
  rw [backward_eq, ends_bind_iff]
  refine ((ends_materialize_resumes valid output).and (ends_materialize valid output)).mono ?_
    fun _ _ stopped => evaluated stopped.1 stopped.2.valid
  rintro _ computed ⟨⟨resumes, validComputed⟩, -⟩
  rw [ends_bind_iff]
  refine ((ends_script_resumes validComputed resumes output).and
    (ends_script validComputed output)).mono ?_ fun _ _ same =>
      same.1 ▸ evaluated resumes validComputed
  rintro compiled middle ⟨⟨resumes, validMiddle, sameArena, properly⟩, -, -, -, inside, -⟩
  have reached := evaluated resumes validMiddle
  refine ends_addGradients validMiddle (sameArena ▸ inside) properly ?_
    fun plan _ domain planned _ _ => ?_
  · rw [ends_onStore_iff]
    refine Script.ends_checkSupported.mono ?_ ?_
    · rintro _ _ rfl
      rfl
    · rintro _ _ rfl
      exact reached
  split
  · exact reached
  · have sameArena : Preserves (OnArena (· = middle.arena))
        (addToTargets plan compiled (compiled.targets middle.arena) domain : Action α Unit) :=
      .bind (preserves_dataBuffers compiled) fun _ => .bind .get fun _ => preserves_onStore _
    refine ((ends_addToTargets validMiddle properly planned domain).and
      (sameArena middle rfl)).mono ?_ ?_
    · rintro _ after ⟨⟨keeps, -⟩, same⟩
      exact ⟨middle, resumes, validMiddle, keeps, same⟩
    · rintro _ after ⟨keeps | ⟨keeps, -⟩, same⟩
      · exact ⟨middle, resumes, validMiddle, keeps.mono (Set.empty_subset _), same⟩
      · exact ⟨middle, resumes, validMiddle, keeps, same⟩

theorem Trains.spares
    (trains : Trains pins output before after)
    (valid : before.Valid pins) :
    before.Spares after := by
  obtain ⟨middle, resumes, validMiddle, keeps, -⟩ := trains
  refine (resumes.spares valid).trans (keeps.spares_of_gradients validMiddle ?_)
    resumes.arena.extension
  rintro buffer ⟨node, -, owned⟩
  exact ⟨node, owned⟩

/-- A backward pass spares all leaves, wherever it stops. -/
theorem ends_backward_spares
    (valid : graph.Valid pins)
    (output : NodeId) :
    Ends (backward output) graph
      (fun _ after => graph.Spares after)
      (fun _ after => graph.Spares after) :=
  (ends_backward_trains valid output).mono (fun _ _ trains => trains.spares valid)
    fun _ _ trains => trains.spares valid

/-! ## Requests to a session -/

namespace Session

variable
    {session : Session α}
    {command : Command α}

/-- No node is different, and every buffer of a node reads as it did. -/
structure Calm (before after : Session α) : Prop where
  arena : after.graph.arena = before.graph.arena
  readings : ∀ node part buffer, before.graph.arena.bufferOf? node part = some buffer →
    after.graph.store.reading? buffer = before.graph.store.reading? buffer

theorem Calm.refl (session : Session α) : session.Calm session :=
  ⟨rfl, fun _ _ _ _ => rfl⟩

/-- A step of the store that makes and writes nothing is calm. -/
theorem calm_of_frame
    {store : Store α}
    {pins : Array (Option BufferId)}
    (frame : Store.Frame ∅ ∅ session.graph.store store) :
    session.Calm ⟨{ session.graph with store := store }, pins⟩ :=
  ⟨rfl, fun _ _ buffer _ =>
    frame.readings buffer (Set.notMem_empty _) (Set.notMem_empty _)⟩

theorem Calm.spares
    {other : Session α}
    (calm : session.Calm other) :
    session.graph.Spares other.graph := by
  intro leaf _
  rw [reading_eq, reading_eq, calm.arena]
  exact congrArg (Option.getD · #[]) (Option.bind_congr fun buffer owned =>
    calm.readings leaf .content buffer owned)

/-- A lease is taken calmly. -/
theorem ends_pinNext_calm
    (valid : session.Valid)
    (node : NodeId)
    (part : Part)
    (tier : Tier) :
    Ends (pinNext node part tier) session (fun _ after => session.Calm after)
      (fun _ after => session.Calm after) := by
  refine ends_pinNext_of ⟨rfl, fun _ _ _ _ => rfl⟩ fun buffer _ => ?_
  refine (Store.ends_lease valid.toLinked.store).mono ?_ fun _ store frame => calm_of_frame frame
  rintro _ _ ⟨store, frame, -, rfl⟩
  refine ⟨rfl, fun node part other owned => ?_⟩
  show ((store.pin buffer).revised buffer _).reading? other = _
  rw [Store.reading?_revised Store.revises_hold, Store.reading?_pin]
  exact frame.readings other (Set.notMem_empty _) (Set.notMem_empty _)

/-- Requests for buffers and leases are calm, unless they give up contents. -/
theorem ends_perform_calm
    (valid : session.Valid)
    (aside : command.isOperation = false)
    (present : command ≠ .clear)
    (kept : command.givesUp = false) :
    Ends (perform command) session (fun _ after => session.Calm after)
      (fun _ after => session.Calm after) := by
  have storeValid : session.graph.store.Valid := valid.toLinked.store
  cases command with
  | clear => exact absurd rfl present
  | offload target device =>
    show Ends (Answer.number <$> onGraph (onStore (Store.offload target device))) session _ _
    rw [ends_map_iff, ends_onGraph_iff, ends_onStore_iff]
    exact (Store.ends_offload storeValid target device).mono
      (fun _ store done => calm_of_frame done.1) fun _ _ never => never.elim
  | ensure node part tier =>
    have stored : tier ≠ .empty := by simpa [Command.givesUp] using kept
    show Ends (onBuffer node part _) session _ _
    unfold onBuffer
    rw [ends_bind_iff]
    refine ends_bufferOf ?_ fun _ => .refl session
    split
    next buffer owned =>
      rw [ends_bind_iff, ends_onGraph_iff, ends_onStore_iff]
      exact (Store.ends_ensure storeValid stored).mono
        (fun _ store frame => calm_of_frame frame) fun _ store frame => calm_of_frame frame
    · exact .refl session
  | release => cases kept
  | pin node part tier => exact ends_pinNext_calm valid node part tier
  | unpin pin =>
    show Ends (do modify (endPin pin); return _) session _ _
    rw [ends_bind_iff, ends_modify_iff]
    refine ⟨?_, fun _ _ _ owned => reading?_endPin valid pin owned⟩
    unfold endPin
    split
    · rfl
    · rfl
  | _ => cases aside

/-- An operation of the graph that spares the leaves. -/
theorem ends_request_spares
    {β : Type}
    {action : Graph.Action α β}
    {answer : β → Answer α}
    (ends : Ends action session.graph (fun _ after => session.graph.Spares after)
      (fun _ after => session.graph.Spares after)) :
    Ends (answer <$> onGraph action) session
      (fun _ after => session.graph.Spares after.graph)
      (fun _ after => session.graph.Spares after.graph) := by
  rw [ends_map_iff, ends_onGraph_iff]
  exact ends

/-- Every request spares the leaves that neither overwrites nor gives up contents. -/
theorem ends_perform_spares
    (valid : session.Valid)
    (kept : command.givesUp = false)
    (spared : command.overwrites = false) :
    Ends (perform command) session (fun _ after => session.graph.Spares after.graph)
      (fun _ after => session.graph.Spares after.graph) := by
  have still : ∀ {β : Type} {action : Graph.Action α β} {answer : β → Answer α},
      Ends action session.graph (fun _ after => Keeps (leases session.pins) ∅ session.graph after)
        (fun _ after => Keeps (leases session.pins) ∅ session.graph after) →
      Ends (answer <$> onGraph action) session
        (fun _ after => session.graph.Spares after.graph)
        (fun _ after => session.graph.Spares after.graph) :=
    fun ends => ends_request_spares (ends.mono (fun _ _ keeps => keeps.spares_of_empty valid)
      fun _ _ keeps => keeps.spares_of_empty valid)
  by_cases aside : command.isOperation = false
  · have present : command ≠ .clear := by
      rintro rfl
      cases spared
    exact (ends_perform_calm valid aside present kept).mono (fun _ _ calm => calm.spares)
      fun _ _ calm => calm.spares
  cases command with
  | leaf shape values trainable => exact still (ends_leaf valid shape values trainable)
  | scalar value => exact still (ends_scalar valid value)
  | create opcode operands => exact still (ends_create valid opcode operands)
  | chain opcode count node => exact still (ends_chain valid opcode count node)
  | markOutput node =>
    exact still ((ends_markOutput valid node).mono (fun _ _ done => done.1) fun _ _ keeps => keeps)
  | script node =>
    exact still ((ends_script valid node).mono (fun _ _ done => done.1)
      fun _ _ same => same.symm ▸ .refl valid)
  | compile node =>
    exact still ((ends_compile valid node).mono (fun _ _ done => done.1)
      fun _ _ failed => failed.1.symm ▸ .refl valid)
  | value node =>
    exact ends_request_spares ((ends_readOutput_resumes valid node).mono
      (fun _ _ resumes => resumes.spares valid) fun _ _ resumes => resumes.spares valid)
  | valueAt node index =>
    exact ends_request_spares ((ends_valueAt_resumes valid node index).mono
      (fun _ _ resumes => resumes.spares valid) fun _ _ resumes => resumes.spares valid)
  | gradient node =>
    exact still ((ends_gradient valid node).mono (fun _ _ done => done.1) fun _ _ keeps => keeps)
  | backward node => exact ends_request_spares (ends_backward_spares valid node)
  | zeroGradient node =>
    refine ends_request_spares ((ends_zeroGradient valid node).mono ?_
      fun _ _ keeps => keeps.spares_of_empty valid)
    rintro _ after ⟨buffer, owned, keeps⟩
    refine keeps.spares_of_gradients valid ?_
    rintro _ rfl
    exact ⟨node, owned⟩
  | reduce node axis reduction => exact still (ends_reduce valid node axis reduction)
  | applyGradient => cases spared
  | setValue => cases spared
  | _ => exact absurd rfl aside

end Session

end Elementwise.Graph
