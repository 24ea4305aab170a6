import Elementwise.Proofs.Graph.Leaves
import Elementwise.Proofs.Graph.Overwriting

/-!
# Results whose contents are given up

That a node is up to date is noted at the node, and that a buffer is empty is noted at
the buffer.  To give up the content of a node says nothing to the node: it counts as up
to date as before, and reads as zeros.

Such a node is hollow until it does not count as up to date any more; its value is then
computed anew.  Nothing else makes a difference to what is answered as the value of a
node: in every run of requests, as long as no leaf is emptied, each node that is not
hollow has the value that it stands for.
-/

namespace Elementwise

/-- A node that is computed is marked as up to date. -/
def Arena.HasResult (arena : Arena) (node : NodeId) : Prop :=
  arena.IsCurrent node ∧ arena.operation? node ≠ some .leaf

namespace Graph

variable
    {α : Type}
    [Element α]
    {graph before middle after : Graph α}
    {pins pinsAfter : BufferId → Nat}
    {written : Set BufferId}
    {output : NodeId}

/-! ## What becomes of results -/

/--
What a request makes of results: those that stand stay as they are, new ones are right, and
those that are given up read as zeros.
-/
structure Renews (given : NodeId → Prop) (before after : Graph α) : Prop where
  kept : ∀ node, before.arena.HasResult node → after.arena.HasResult node →
    after.arena.shape? node = before.arena.shape? node ∧
    (∀ size, after.meaning node size = before.meaning node size) ∧
    (¬ given node → after.reading node = before.reading node)
  new : ∀ node shape size, ¬ before.arena.HasResult node → after.arena.HasResult node →
    ¬ given node → after.arena.shape? node = some shape → shape.size = .ok size →
    after.reading node = after.meaning node size
  emptied : ∀ node shape size, given node → after.arena.HasResult node →
    after.arena.shape? node = some shape → shape.size = .ok size →
    after.reading node = zeros α size

/-- No result is given up. -/
abbrev RenewsAll (before after : Graph α) : Prop :=
  Renews (fun _ => False) before after

theorem Renews.congr
    {given other : NodeId → Prop}
    (renews : Renews given before after)
    (same : ∀ node, given node ↔ other node) :
    Renews other before after := by
  obtain rfl : given = other := funext fun node => propext (same node)
  exact renews

/-- An operation that makes no result and writes no content. -/
theorem renewsAll_of_keeps
    (valid : before.Valid pins)
    (keeps : Keeps pinsAfter written before after)
    (contents : ∀ node content, before.arena.bufferOf? node .content = some content →
      content ∉ written)
    (old : ∀ node, after.arena.HasResult node → before.arena.HasResult node) :
    before.RenewsAll after where
  kept node result _ := by
    obtain ⟨buffer, owned⟩ := valid.current node result.1
    have inside := index_lt_of_bufferOf? owned
    obtain ⟨shape, size, shaped, sized⟩ := valid.exists_size inside
    refine ⟨(keeps.grows.shape node shape shaped).trans shaped.symm, fun size => ?_, fun _ => ?_⟩
    · apply meaning_congr valid.arena keeps.valid.arena keeps.grows.extension inside
      intro leaf _ isLeaf
      obtain ⟨content, ownedLeaf⟩ := valid.current leaf (valid.leaves leaf isLeaf)
      exact reading_congr keeps.grows ownedLeaf
        (keeps.readings leaf .content content ownedLeaf (contents leaf content ownedLeaf))
    · exact reading_congr keeps.grows owned
        (keeps.readings node .content buffer owned (contents node buffer owned))
  new node _ _ none result := absurd (old node result) none
  emptied _ _ _ none := none.elim

/-- An operation that leaves the nodes alone and writes no content. -/
theorem renewsAll_of_arena
    (valid : before.Valid pins)
    (keeps : Keeps pinsAfter ∅ before after)
    (same : after.arena = before.arena) :
    before.RenewsAll after :=
  renewsAll_of_keeps valid keeps (fun _ _ _ => Set.notMem_empty _) fun node result => by
    rwa [same] at result

/-- An evaluation brings nodes up to date, and these are right. -/
theorem Resumes.renewsAll
    (resumes : before.Resumes after)
    (valid : before.Valid pins)
    (validAfter : after.Valid pins) :
    before.RenewsAll after where
  kept node result _ := by
    obtain ⟨buffer, owned⟩ := valid.current node result.1
    refine ⟨congrFun resumes.arena.shape? node, fun size => ?_, fun _ => ?_⟩
    · exact resumes.meaning valid (index_lt_of_bufferOf? owned)
    · rw [reading_eq, reading_eq, owned, resumes.owned node .content buffer owned,
        Option.bind_some, Option.bind_some,
        resumes.readings node .content buffer owned fun _ => result.1]
  new node shape size none result _ shaped sized := by
    have outdated : ¬ before.arena.IsCurrent node := by
      intro current
      apply none ⟨current, _⟩
      rw [← resumes.arena.operation?]
      exact result.2
    exact resumes.reads_meaning valid validAfter result.1 shaped sized fun current =>
      absurd current outdated
  emptied _ _ _ none := none.elim

theorem Renews.trans_of_stays
    (first : before.RenewsAll middle)
    (second : middle.RenewsAll after)
    (stays : ∀ node, before.arena.HasResult node → after.arena.HasResult node →
      middle.arena.HasResult node) :
    before.RenewsAll after where
  kept node result later := by
    have between := stays node result later
    obtain ⟨shapeFirst, meaningFirst, readingFirst⟩ := first.kept node result between
    obtain ⟨shapeSecond, meaningSecond, readingSecond⟩ := second.kept node between later
    refine ⟨shapeSecond.trans shapeFirst, fun size => ?_, fun kept => ?_⟩
    · exact (meaningSecond size).trans (meaningFirst size)
    · exact (readingSecond kept).trans (readingFirst kept)
  new node shape size none later kept shaped sized := by
    by_cases between : middle.arena.HasResult node
    · obtain ⟨sameShape, sameMeaning, sameReading⟩ := second.kept node between later
      rw [sameShape] at shaped
      rw [sameMeaning, sameReading kept]
      exact first.new node shape size none between kept shaped sized
    · exact second.new node shape size between later kept shaped sized
  emptied _ _ _ none := none.elim

/-- A backward pass evaluates, and then writes gradients only. -/
theorem Trains.renewsAll
    (trains : Trains pins output before after)
    (valid : before.Valid pins) :
    before.RenewsAll after := by
  obtain ⟨middle, resumes, validMiddle, keeps, same⟩ := trains
  have contents : ∀ node content, middle.arena.bufferOf? node .content = some content →
      content ∉ gradients middle.arena output := by
    rintro node content owned ⟨other, -, ownedGradient⟩
    exact content_ne_gradient validMiddle owned ownedGradient rfl
  have second := renewsAll_of_keeps validMiddle keeps contents fun node result => by
    rwa [same] at result
  apply (resumes.renewsAll valid validMiddle).trans_of_stays second
  intro node _ result
  rwa [same] at result

/-- What is still up to date after a leaf was overwritten does not depend on it. -/
theorem Overwrites.renewsAll
    {leaf : NodeId}
    {values : Array α}
    (overwrites : before.Overwrites leaf values after)
    (valid : before.Valid pins) :
    before.RenewsAll after := by
  have alike : before.arena.Alike after.arena := by
    rw [overwrites.arena]
    exact Arena.alike_invalidate leaf
  have flags : ∀ node, after.arena.IsCurrent node ↔
      before.arena.IsCurrent node ∧ ¬ before.arena.Downstream leaf node := by
    intro node
    rw [overwrites.arena]
    exact isCurrent_invalidate valid.arena leaf node
  obtain ⟨content, owned, keeps⟩ := overwrites.keeps valid
  constructor
  · intro node result later
    obtain ⟨buffer, ownedNode⟩ := valid.current node result.1
    have different : node ≠ leaf := by
      rintro rfl
      exact result.2 overwrites.isLeaf
    refine ⟨congrFun alike.shape? node, fun size => ?_, fun _ => ?_⟩
    · apply meaning_congr valid.arena keeps.valid.arena keeps.grows.extension
        (index_lt_of_bufferOf? ownedNode)
      intro other depends isLeaf
      apply overwrites.reading_other valid _ isLeaf
      rintro rfl
      exact ((flags node).1 later.1).2 ⟨depends, different⟩
    · apply reading_congr keeps.grows ownedNode
      apply keeps.readings node .content buffer ownedNode
      rintro rfl
      exact different (valid.apart node leaf .content .content _ ownedNode owned).1
  · intro node _ _ none later
    have before := ((flags node).1 later.1).1
    rw [Arena.HasResult, alike.operation?] at later
    exact absurd ⟨before, later.2⟩ none
  · exact fun _ _ _ none => none.elim

/-- The content of a node that is computed is given up. -/
theorem renews_release
    {node : NodeId}
    {buffer : BufferId}
    {store : Store α}
    (valid : graph.Valid pins)
    (owned : graph.arena.bufferOf? node .content = some buffer)
    (computed : graph.arena.operation? node ≠ some .leaf)
    (frame : Store.Frame ∅ {buffer} graph.store store)
    (empty : ∃ held, graph.store.claim? buffer = some held ∧
      store.reading? buffer = some (zeros α held.length)) :
    Renews (fun other => other = node) graph { graph with store := store } := by
  have others : ∀ other, other ≠ node → ∀ content,
      graph.arena.bufferOf? other .content = some content →
      store.reading? content = graph.store.reading? content := by
    intro other different content ownedOther
    apply frame.readings content (Set.notMem_empty _)
    rintro rfl
    exact different (valid.apart other node .content .content _ ownedOther owned).1
  have readings : ∀ other, other ≠ node →
      Graph.reading { graph with store := store } other = graph.reading other := by
    intro other different
    rw [reading_eq, reading_eq]
    exact congrArg (Option.getD · #[]) (Option.bind_congr fun content ownedOther =>
      others other different content ownedOther)
  constructor
  · intro other result _
    obtain ⟨content, ownedOther⟩ := valid.current other result.1
    refine ⟨rfl, fun size => ?_, readings other⟩
    refine meaning_congr valid.arena valid.arena (fun _ _ => rfl)
      (index_lt_of_bufferOf? ownedOther) fun leaf _ isLeaf => readings leaf ?_
    rintro rfl
    exact computed isLeaf
  · exact fun other _ _ none result => absurd result none
  · rintro other shape size rfl _ shaped sized
    obtain ⟨held, claimed, reads⟩ := empty
    have sizes := valid.claims other .content buffer shape size owned shaped sized
    rw [claimed] at sizes
    cases sizes
    exact reading_of_bufferOf? owned reads

/-! ## Operations that make no result -/

/-- Nothing but given nodes has a result. -/
def OnlyResults (old : NodeId → Prop) (arena : Arena) : Prop :=
  ∀ node, arena.HasResult node → old node

section

variable
    {old : NodeId → Prop}
    {arena : Arena}

/-- A new node has no result. -/
theorem OnlyResults.push
    (only : OnlyResults old arena)
    (operation : Operation)
    (shape : Shape)
    (needsGradient : Bool) :
    OnlyResults old (arena.push operation shape needsGradient).2 := by
  rintro node ⟨current, computed⟩
  have before := (Arena.isCurrent_push ..).1 current
  have existing : node.index ≠ arena.size := by
    obtain ⟨found, present, -⟩ := before
    intro last
    rw [Arena.node?_of_size_le (Nat.le_of_eq last.symm)] at present
    cases present
  rw [Arena.operation?_push, if_neg existing] at computed
  exact only node ⟨before, computed⟩

/-- A leaf has no result, whatever is noted about it. -/
theorem OnlyResults.modify_leaf
    (only : OnlyResults old arena)
    {leaf : NodeId}
    {change : Node → Node}
    (core : ∀ found, (change found).core = found.core)
    (isLeaf : arena.operation? leaf = some .leaf) :
    OnlyResults old (arena.modify leaf change) := by
  have alike := arena.alike_modify leaf change core
  rintro node ⟨current, computed⟩
  rw [alike.operation?] at computed
  have different : ¬ leaf = node := by
    rintro rfl
    exact computed isLeaf
  obtain ⟨found, present, upToDate⟩ := current
  rw [Arena.node?_modify, if_neg different] at present
  exact only node ⟨⟨found, present, upToDate⟩, computed⟩

omit [Element α] in
theorem preserves_create_onlyResults
    (opcode : OpCode)
    (operands : List NodeId) :
    Preserves (OnArena (OnlyResults old) : Graph α → Prop) (create opcode operands) := by
  refine fun graph only => ends_create_of_intern (fun operation shape needsGradient _ => ?_)
    fun _ _ => only
  refine Preserves.bind .get (fun graph => ?_) graph only
  split
  · exact .pure _
  · exact .bind (.modifyGet fun graph only => only.push operation shape needsGradient) fun node =>
      .bind (.modify fun _ held => held) fun _ => .pure _

omit [Element α] in
theorem preserves_chain_onlyResults
    (opcode : OpCode)
    (count : Nat)
    (node : NodeId) :
    Preserves (OnArena (OnlyResults old) : Graph α → Prop) (chain opcode count node) := by
  induction count generalizing node with
  | zero => exact .pure _
  | succ count step => exact .bind (preserves_create_onlyResults opcode _) fun next => step next

omit [Element α] in
/-- Once a node is a leaf, it may be noted to be up to date. -/
theorem preserves_modifyNode_onlyResults
    (leaf : NodeId)
    {change : Node → Node}
    (core : ∀ found, (change found).core = found.core) :
    Preserves
      (OnArena fun arena => OnlyResults old arena ∧ arena.operation? leaf = some .leaf :
        Graph α → Prop)
      (modifyNode leaf change) := by
  apply Preserves.modify
  rintro graph ⟨only, isLeaf⟩
  refine ⟨only.modify_leaf core isLeaf, ?_⟩
  exact (congrFun (graph.arena.alike_modify leaf change core).operation? leaf).trans isLeaf

omit [Element α] in
/-- A new leaf. -/
theorem ends_push_leaf_onlyResults
    {β : Type}
    {rest : NodeId → Action α β}
    (shape : Shape)
    (needsGradient : Bool)
    (only : OnlyResults old graph.arena)
    (stores : ∀ leaf, Preserves
      (OnArena fun arena => OnlyResults old arena ∧ arena.operation? leaf = some .leaf)
      (rest leaf)) :
    Ends (push .leaf shape needsGradient >>= rest) graph
      (fun _ after => OnlyResults old after.arena)
      fun _ after => OnlyResults old after.arena := by
  rw [ends_bind_iff, push, ends_modifyGet_iff]
  have isLeaf : (graph.arena.push .leaf shape needsGradient).2.operation?
      (graph.arena.push .leaf shape needsGradient).1 = some .leaf := by
    rw [Arena.operation?_push]
    exact if_pos rfl
  exact (stores _ _ ⟨only.push .leaf shape needsGradient, isLeaf⟩).mono
    (fun _ _ after => after.1) fun _ _ after => after.1

omit [Element α] in
theorem preserves_leaf_onlyResults
    (shape : Shape)
    (values : Array α)
    (trainable : Bool) :
    Preserves (OnArena (OnlyResults old)) (leaf shape values trainable) := by
  refine .bind (preserves_check _) fun size => ?_
  dsimp only
  split
  · exact .throw_bind _
  · intro graph only
    apply ends_push_leaf_onlyResults shape trainable only
    intro leaf
    refine .bind (preserves_onStore _) fun content => ?_
    exact preserves_gradientIfNeeded (preserves_onStore _) trainable fun gradient =>
      .bind (preserves_modifyNode_onlyResults leaf fun _ => rfl) fun _ => .pure _

theorem preserves_scalar_onlyResults (value : α) :
    Preserves (OnArena (OnlyResults old)) (scalar value) := by
  refine .bind .get fun graph => ?_
  split
  · exact .pure _
  · intro graph only
    apply ends_push_leaf_onlyResults .scalar false only
    intro leaf
    exact .bind (preserves_onStore _) fun content =>
      .bind (preserves_modifyNode_onlyResults leaf fun _ => rfl) fun _ =>
        .bind (.modify fun _ held => held) fun _ => .pure _

end

/-! ## Requests to a session -/

namespace Session

/-- The node whose content a request gives up. -/
def Command.emptied? : Command α → Option NodeId
  | .release node .content => some node
  | .ensure node .content .empty => some node
  | _ => none

variable
    {session : Session α}
    {command : Command α}

omit [Element α] in
/-- A request that empties no buffer empties no node. -/
theorem emptied?_eq_none (spared : command.givesUp = false) : command.emptied? = none := by
  cases command with
  | release => cases spared
  | ensure node part tier =>
    cases part with
    | gradient => rfl
    | content =>
      cases tier with
      | empty => cases spared
      | _ => rfl
  | _ => rfl

theorem Calm.renewsAll
    {other : Session α}
    (calm : session.Calm other) :
    session.graph.RenewsAll other.graph := by
  have readings : other.graph.reading = session.graph.reading := by
    funext node
    rw [reading_eq, reading_eq, calm.arena]
    exact congrArg (Option.getD · #[]) (Option.bind_congr fun buffer owned =>
      calm.readings node .content buffer owned)
  constructor
  · intro node _ _
    refine ⟨by rw [calm.arena], fun size => ?_, fun _ => congrFun readings node⟩
    unfold meaning elementOf
    rw [calm.arena, readings]
  · intro node _ _ none result
    rw [calm.arena] at result
    exact absurd result none
  · exact fun _ _ _ none => none.elim

/-- An operation of the graph that gives up no result. -/
theorem ends_request_renewsAll
    {β : Type}
    {action : Graph.Action α β}
    {answer : β → Answer α}
    (ends : Ends action session.graph (fun _ after => session.graph.RenewsAll after)
      (fun _ after => session.graph.RenewsAll after)) :
    Ends (answer <$> onGraph action) session
      (fun _ after => session.graph.RenewsAll after.graph)
      (fun _ after => session.graph.RenewsAll after.graph) := by
  rw [ends_map_iff, ends_onGraph_iff]
  exact ends

/-- An operation of the graph that makes no result and writes no content. -/
theorem ends_request_onlyResults
    {β : Type}
    {action : Graph.Action α β}
    {answer : β → Answer α}
    (valid : session.Valid)
    (ends : Ends action session.graph
      (fun _ after => Keeps (leases session.pins) ∅ session.graph after)
      (fun _ after => Keeps (leases session.pins) ∅ session.graph after))
    (only : Preserves (OnArena (OnlyResults session.graph.arena.HasResult)) action) :
    Ends (answer <$> onGraph action) session
      (fun _ after => session.graph.RenewsAll after.graph)
      (fun _ after => session.graph.RenewsAll after.graph) := by
  have renews : ∀ {after : Graph α}, Keeps (leases session.pins) ∅ session.graph after →
      OnlyResults session.graph.arena.HasResult after.arena → session.graph.RenewsAll after :=
    fun keeps old => renewsAll_of_keeps valid keeps (fun _ _ _ => Set.notMem_empty _) old
  apply ends_request_renewsAll
  exact (ends.and (only session.graph fun _ result => result)).mono
    (fun _ _ both => renews both.1 both.2) fun _ _ both => renews both.1 both.2

/-- An operation of the graph that evaluates and does nothing else. -/
theorem ends_request_evaluates
    {β : Type}
    {action : Graph.Action α β}
    {answer : β → Answer α}
    (valid : session.Valid)
    (resumes : Ends action session.graph (fun _ after => session.graph.Resumes after)
      (fun _ after => session.graph.Resumes after))
    (keeps : Ends action session.graph
      (fun _ after => ∃ written, Keeps (leases session.pins) written session.graph after)
      (fun _ after => ∃ written, Keeps (leases session.pins) written session.graph after)) :
    Ends (answer <$> onGraph action) session
      (fun _ after => session.graph.RenewsAll after.graph)
      (fun _ after => session.graph.RenewsAll after.graph) := by
  apply ends_request_renewsAll
  refine (resumes.and keeps).mono ?_ ?_
  · rintro _ _ ⟨resumes, written, keeps⟩
    exact resumes.renewsAll valid keeps.valid
  · rintro _ _ ⟨resumes, written, keeps⟩
    exact resumes.renewsAll valid keeps.valid

/-- The contents of a buffer are given up, be it the content of a node or a gradient. -/
theorem ends_onBuffer_release
    {node : NodeId}
    {part : Part}
    (valid : session.Valid)
    (computed : part = .content → session.graph.arena.operation? node ≠ some .leaf) :
    Ends (onBuffer node part Store.release) session
      (fun answer after => session.graph.Renews
        (fun other => part = .content ∧ other = node ∧ answer = .done) after.graph)
      (fun _ after => session.graph.RenewsAll after.graph) := by
  have unchanged : session.graph.RenewsAll session.graph :=
    renewsAll_of_arena valid (.refl valid) rfl
  unfold onBuffer
  rw [ends_bind_iff]
  refine ends_bufferOf ?_ fun _ => unchanged
  split
  next buffer owned =>
    rw [ends_bind_iff, ends_onGraph_iff, ends_onStore_iff]
    refine (Store.ends_release valid.toLinked.store).mono ?_ fun _ store frame =>
      renewsAll_of_arena valid (.of_frame_empty valid frame) rfl
    rintro _ store ⟨frame, empty⟩
    rw [ends_pure_iff]
    cases part with
    | content =>
      have renews := renews_release valid owned (computed rfl) frame empty
      exact renews.congr fun other => by simp
    | gradient =>
      have contents : ∀ other content, session.graph.arena.bufferOf? other .content = some content →
          content ∉ ({buffer} : Set BufferId) :=
        fun _ _ ownedContent => content_ne_gradient valid ownedContent owned
      have keeps := Keeps.of_frame valid frame (fun _ absent => absent.elim) contents
      have renews := renewsAll_of_keeps valid keeps contents fun _ result => result
      exact renews.congr fun other => by simp
  · exact unchanged.congr fun other => by simp

/-- Requests that empty no buffer give up no result. -/
theorem ends_perform_renewsAll
    (valid : session.Valid)
    (spared : command.givesUp = false) :
    Ends (perform command) session (fun _ after => session.graph.RenewsAll after.graph)
      (fun _ after => session.graph.RenewsAll after.graph) := by
  by_cases calm : command.isOperation = false ∧ command ≠ .clear
  · obtain ⟨aside, present⟩ := calm
    exact (ends_perform_calm valid aside present spared).mono (fun _ _ calm => calm.renewsAll)
      fun _ _ calm => calm.renewsAll
  have rested : ∀ {after : Graph α}, session.graph.Rests after →
      session.graph.RenewsAll after := by
    rintro after ⟨store, frame, rfl⟩
    exact renewsAll_of_arena valid (.of_frame_empty valid frame) rfl
  cases command with
  | leaf shape values trainable =>
    exact ends_request_onlyResults valid (ends_leaf valid shape values trainable)
      (preserves_leaf_onlyResults shape values trainable)
  | scalar value =>
    exact ends_request_onlyResults valid (ends_scalar valid value)
      (preserves_scalar_onlyResults value)
  | create opcode operands =>
    exact ends_request_onlyResults valid (ends_create valid opcode operands)
      (preserves_create_onlyResults opcode operands)
  | chain opcode count node =>
    exact ends_request_onlyResults valid (ends_chain valid opcode count node)
      (preserves_chain_onlyResults opcode count node)
  | markOutput node =>
    apply ends_request_renewsAll
    refine ((ends_markOutput_resumes valid node).and (ends_markOutput valid node)).mono ?_ ?_
    · exact fun _ _ both => both.1.1.renewsAll valid both.1.2
    · rintro _ _ ⟨rfl, keeps⟩
      exact renewsAll_of_arena valid keeps rfl
  | script node =>
    apply ends_request_renewsAll
    refine (ends_script valid node).mono ?_ ?_
    · exact fun _ _ done => renewsAll_of_arena valid done.1 done.2.1
    · rintro _ _ rfl
      exact renewsAll_of_arena valid (.refl valid) rfl
  | compile node =>
    apply ends_request_renewsAll
    refine (ends_compile valid node).mono ?_ ?_
    · exact fun _ _ done => renewsAll_of_arena valid done.1 done.2.1
    · rintro _ _ ⟨rfl, -⟩
      exact renewsAll_of_arena valid (.refl valid) rfl
  | value node =>
    exact ends_request_evaluates valid (ends_readOutput_resumes valid node)
      ((ends_value valid node).mono (fun _ _ done => done.1) fun _ _ keeps => keeps)
  | valueAt node index =>
    exact ends_request_evaluates valid (ends_valueAt_resumes valid node index)
      ((ends_valueAt valid node index).mono (fun _ _ done => done.1) fun _ _ keeps => keeps)
  | gradient node =>
    exact ends_request_onlyResults valid
      ((ends_gradient valid node).mono (fun _ _ done => done.1) fun _ _ keeps => keeps)
      (.bind (preserves_gradientBuffer _) fun _ => preserves_onStore _)
  | backward node =>
    apply ends_request_renewsAll
    exact (ends_backward_trains valid node).mono (fun _ _ trains => trains.renewsAll valid)
      fun _ _ trains => trains.renewsAll valid
  | applyGradient node rate =>
    apply ends_request_renewsAll
    refine (ends_applyGradient_descended valid node rate).mono ?_ fun _ _ rests => rested rests
    rintro _ after ⟨⟨_, _, _, _, _, -, -, -, -, -, overwrites⟩, -, -⟩
    exact overwrites.renewsAll valid
  | zeroGradient node =>
    have sameArena : Preserves (OnArena (· = session.graph.arena))
        (Graph.zeroGradient node : Graph.Action α Unit) :=
      .bind (preserves_gradientBuffer _) fun _ => preserves_onStore _
    apply ends_request_renewsAll
    refine ((ends_zeroGradient valid node).and (sameArena session.graph rfl)).mono ?_ ?_
    · rintro _ after ⟨⟨buffer, owned, keeps⟩, same⟩
      refine renewsAll_of_keeps valid keeps ?_ fun other result => ?_
      · exact fun _ _ ownedContent => content_ne_gradient valid ownedContent owned
      · rwa [same] at result
    · exact fun _ _ both => renewsAll_of_arena valid both.1 both.2
  | setValue node values =>
    apply ends_request_renewsAll
    exact (ends_setValue_overwrites valid node values).mono
      (fun _ _ done => done.1.renewsAll valid) fun _ _ rests => rested rests
  | reduce node axis reduction =>
    apply ends_request_renewsAll
    exact (ends_reduce_folds valid node axis reduction).mono
      (fun _ _ done => renewsAll_of_arena valid done.1.keeps done.1.arena)
      fun _ _ same => renewsAll_of_arena valid same.keeps same.arena
  | clear =>
    have nothing : ∀ node, ¬ session.graph.clear.arena.HasResult node := by
      rintro node ⟨⟨found, present, -⟩, -⟩
      cases present
    exact ⟨fun node _ result => absurd result (nothing node),
      fun node _ _ _ result => absurd result (nothing node),
      fun _ _ _ none => none.elim⟩
  | _ => exact absurd ⟨rfl, by rintro ⟨⟩⟩ calm

/-- What is given up: the content of a node, if it has one and the request succeeds. -/
def Empties (session : Session α) (command : Command α) (node : NodeId) : Prop :=
  command.emptied? = some node ∧ (session.step command).1 = .ok .done

/-- A step gives up at most the result of the node that it empties. -/
theorem step_renews
    (valid : session.Valid)
    (computed : ∀ node, command.emptied? = some node →
      session.graph.arena.operation? node ≠ some .leaf) :
    session.graph.Renews (session.Empties command) (session.step command).2.graph := by
  have released : ∀ (node : NodeId) (part : Part),
      perform command = onBuffer node part Store.release →
      (∀ other, command.emptied? = some other ↔ part = .content ∧ other = node) →
      session.graph.Renews (session.Empties command) (session.step command).2.graph := by
    intro node part performed given
    have ends : Ends (perform command) session
        (fun answer after => session.graph.Renews
          (fun other => command.emptied? = some other ∧ answer = .done) after.graph)
        (fun _ after => session.graph.RenewsAll after.graph) := by
      rw [performed]
      refine (ends_onBuffer_release valid ?_).mono (fun answer _ renews => ?_) fun _ _ same => same
      · rintro rfl
        exact computed node ((given node).2 ⟨rfl, rfl⟩)
      · exact renews.congr fun other => by rw [given, and_assoc]
    cases answered : (session.step command).1 with
    | ok answer =>
      refine (step_of_ok ends answered).congr fun other => ?_
      rw [Empties, answered, Except.ok.injEq]
    | error reason =>
      refine (step_of_error ends answered).congr fun other => ?_
      rw [Empties, answered]
      exact ⟨False.elim, fun emptied => nomatch emptied.2⟩
  by_cases spared : command.givesUp = false
  · refine (step_of_ends (ends_perform_renewsAll valid spared)).congr fun node => ?_
    rw [Empties, emptied?_eq_none spared]
    exact ⟨False.elim, fun emptied => nomatch emptied.1⟩
  · cases command with
    | release node part =>
      refine released node part rfl fun other => ?_
      cases part <;> simp [Command.emptied?, eq_comm]
    | ensure node part tier =>
      obtain rfl : tier = .empty := by simpa [Command.givesUp] using spared
      refine released node part rfl fun other => ?_
      cases part <;> simp [Command.emptied?, eq_comm]
    | _ => exact absurd rfl spared

/-! ## Runs of requests -/

/-- The result of a node was given up, and the node counts as up to date ever since. -/
inductive Hollow (initial : Session α) (node : NodeId) : List (Command α) → Prop
  | emptied
      {commands : List (Command α)}
      {command : Command α}
      (given : (initial.run commands).Empties command node)
      (result : (initial.run (commands ++ [command])).graph.arena.HasResult node) :
      Hollow initial node (commands ++ [command])
  | kept
      {commands : List (Command α)}
      {command : Command α}
      (hollow : Hollow initial node commands)
      (result : (initial.run (commands ++ [command])).graph.arena.HasResult node) :
      Hollow initial node (commands ++ [command])

variable
    {initial : Session α}
    {commands : List (Command α)}
    {node : NodeId}

/-- One more request leaves a node hollow, or makes it so, if it still counts as up to date. -/
theorem hollow_append_iff :
    initial.Hollow node (commands ++ [command]) ↔
      (initial.run (commands ++ [command])).graph.arena.HasResult node ∧
        ((initial.run commands).Empties command node ∨ initial.Hollow node commands) := by
  constructor
  · generalize longer : commands ++ [command] = all
    intro hollow
    cases hollow with
    | emptied given result =>
      obtain ⟨rfl, last⟩ := List.append_inj' longer rfl
      cases last
      exact ⟨result, .inl given⟩
    | kept hollow result =>
      obtain ⟨rfl, last⟩ := List.append_inj' longer rfl
      cases last
      exact ⟨result, .inr hollow⟩
  · rintro ⟨result, given | hollow⟩
    · exact .emptied given result
    · exact .kept hollow result

theorem Hollow.hasResult
    (hollow : initial.Hollow node commands) :
    (initial.run commands).graph.arena.HasResult node := by
  cases hollow with
  | emptied given result => exact result
  | kept hollow result => exact result

/-- Among the nodes with results, the hollow ones read as zeros and the others as their values. -/
def Sorted (session : Session α) (hollow : NodeId → Prop) : Prop :=
  ∀ node shape size, session.graph.arena.HasResult node →
    session.graph.arena.shape? node = some shape → shape.size = .ok size →
    (hollow node → session.graph.reading node = zeros α size) ∧
    (¬ hollow node → session.graph.reading node = session.graph.meaning node size)

/-- One step sorts the results anew. -/
theorem Sorted.step
    {before after : Session α}
    {hollow hollowAfter given : NodeId → Prop}
    (sorted : before.Sorted hollow)
    (renews : before.graph.Renews given after.graph)
    (stands : ∀ node, hollow node → before.graph.arena.HasResult node)
    (becomes : ∀ node, after.graph.arena.HasResult node →
      (hollowAfter node ↔ given node ∨ hollow node)) :
    after.Sorted hollowAfter := by
  intro node shape size result shaped sized
  by_cases emptied : given node
  · refine ⟨fun _ => renews.emptied node shape size emptied result shaped sized, fun full => ?_⟩
    exact absurd ((becomes node result).2 (.inl emptied)) full
  · have same : hollowAfter node ↔ hollow node := by
      rw [becomes node result]
      exact or_iff_right emptied
    rw [same]
    by_cases old : before.graph.arena.HasResult node
    · obtain ⟨sameShape, sameMeaning, sameReading⟩ := renews.kept node old result
      rw [sameShape] at shaped
      rw [sameMeaning, sameReading emptied]
      exact sorted node shape size old shaped sized
    · refine ⟨fun empty => absurd (stands node empty) old, fun _ => ?_⟩
      exact renews.new node shape size old result emptied shaped sized

/-- Whether a run empties nodes that are computed only. -/
def SparesLeaves (initial : Session α) (commands : List (Command α)) : Prop :=
  ∀ earlier command later, commands = earlier ++ command :: later → ∀ node,
    command.emptied? = some node →
    (initial.run earlier).graph.arena.operation? node ≠ some .leaf

theorem SparesLeaves.init
    (spares : initial.SparesLeaves (commands ++ [command])) :
    initial.SparesLeaves commands := by
  intro earlier other later split
  apply spares earlier other (later ++ [command])
  rw [split, List.append_assoc, List.cons_append]

theorem sparesLeaves_of_emptied?_eq_none
    (none : ∀ command ∈ commands, command.emptied? = none) :
    initial.SparesLeaves commands := by
  intro earlier command later split node given
  have member : command ∈ commands := by
    rw [split]
    exact List.mem_append_right _ List.mem_cons_self
  rw [none command member] at given
  cases given

theorem SparesLeaves.append
    (spares : initial.SparesLeaves commands)
    (computed : ∀ node, command.emptied? = some node →
      (initial.run commands).graph.arena.operation? node ≠ some .leaf) :
    initial.SparesLeaves (commands ++ [command]) := by
  intro earlier other later split node given
  rcases List.eq_nil_or_concat later with rfl | ⟨before, last, rfl⟩
  · obtain ⟨rfl, same⟩ := List.append_inj' split rfl
    cases same
    exact computed node given
  · rw [List.concat_eq_append, ← List.cons_append, ← List.append_assoc] at split
    exact spares earlier other before (List.append_inj' split rfl).1 node given

/-- After a run the results are sorted into those that were given up and the others. -/
theorem sorted_run
    (capacity : Nat)
    (device : DeviceId)
    (unsupported : List OpCode)
    (faults : Method → Nat → Option DeviceError)
    (config : Config)
    (commands : List (Command α))
    (spares : (start capacity device unsupported faults config).SparesLeaves commands) :
    ((start capacity device unsupported faults config).run commands).Sorted
      fun node => (start capacity device unsupported faults config).Hollow node commands := by
  induction commands using List.reverseRecOn with
  | nil =>
    rintro node shape size ⟨⟨found, present, -⟩, -⟩
    cases present
  | append_singleton commands command sorted =>
    have valid := run_valid capacity device unsupported faults config commands
    have renews := step_renews valid (spares commands command [] rfl)
    have next : (start capacity device unsupported faults config).run (commands ++ [command]) =
        (((start capacity device unsupported faults config).run commands).step command).2 :=
      run_append _ commands [command]
    rw [next]
    refine (sorted spares.init).step renews (fun _ hollow => hollow.hasResult) fun node result => ?_
    rw [hollow_append_iff, next]
    exact and_iff_right result

/-- What is answered as the value of a node is what its content then reads as. -/
theorem ends_readOutput_reading
    {graph : Graph α}
    {pins : BufferId → Nat}
    (valid : graph.Valid pins)
    (output : NodeId) :
    Ends
      (do
        let target ← materialize output
        onStore (Store.read target))
      graph
      (fun values after => graph.Resumes after ∧ after.Valid pins ∧
        after.arena.IsCurrent output ∧ values = after.reading output)
      (fun _ _ => True) := by
  rw [ends_bind_iff]
  refine ((ends_materialize valid output).and (ends_materialize_resumes valid output)).mono ?_
    fun _ _ _ => trivial
  rintro target middle ⟨⟨marked, -, computes⟩, resumes, validMiddle⟩
  rw [ends_onStore_iff]
  refine (Store.ends_read validMiddle.store).mono ?_ fun _ _ _ => trivial
  rintro values store ⟨frame, reads⟩
  have owned : middle.arena.bufferOf? output .content = some target :=
    (computes.buffers output .content).trans computes.owned
  have readsAfter : store.reading? target = some values := by
    rw [frame.readings target (Set.notMem_empty _) (Set.notMem_empty _), reads]
  refine ⟨resumes.onStore frame valid.store, (Keeps.of_frame_empty validMiddle frame).valid,
    computes.current, ?_⟩
  exact (reading_of_bufferOf? (by exact owned) readsAfter).symm

/-- An element of the value of a node is one of those that are read. -/
theorem ends_valueAt_of_read
    {graph : Graph α}
    {output : NodeId}
    {index : List Nat}
    {done : Array α → Graph α → Prop}
    (read : Ends
      (do
        let target ← materialize output
        onStore (Store.read target))
      graph done fun _ _ => True) :
    Ends (valueAt output index) graph
      (fun value after => ∃ shape flat values, graph.arena.shape? output = some shape ∧
        shape.flatten index = .ok flat ∧ values[flat]? = some value ∧ done values after)
      (fun _ _ => True) := by
  unfold valueAt
  rw [ends_bind_iff]
  refine ends_node ?_ fun _ => trivial
  intro found present
  have shaped : graph.arena.shape? output = some found.shape := by
    rw [Arena.shape?, present, Option.map_some]
  rw [ends_bind_iff]
  refine ends_check ?_ fun _ => trivial
  intro flat flattened
  rw [ends_bind_iff] at read ⊢
  refine read.mono ?_ fun _ _ _ => trivial
  intro target middle read
  rw [ends_bind_iff]
  refine read.mono ?_ fun _ _ _ => trivial
  intro values after holds
  cases element : values[flat]? with
  | some value => exact ⟨found.shape, flat, values, shaped, flattened, element, holds⟩
  | none => exact trivial

/-- What is answered as the value of a node, zeros if it is hollow and its value if not. -/
def ReadsAs (session : Session α) (node : NodeId) (hollow : Prop) (values : Array α) : Prop :=
  ∃ shape size, session.graph.arena.shape? node = some shape ∧ shape.size = .ok size ∧
    (¬ hollow → values = session.graph.meaning node size) ∧ (hollow → values = zeros α size)

theorem Sorted.readsAs
    {hollow : NodeId → Prop}
    {after : Graph α}
    {values : Array α}
    (sorted : session.Sorted hollow)
    (stands : ∀ node, hollow node → session.graph.arena.HasResult node)
    (valid : session.Valid)
    (validAfter : after.Valid (leases session.pins))
    (resumes : session.graph.Resumes after)
    (current : after.arena.IsCurrent node)
    (reads : values = after.reading node) :
    session.ReadsAs node (hollow node) values := by
  obtain ⟨buffer, owned⟩ := validAfter.current node current
  have inside : node.index < session.graph.arena.size := by
    rw [← resumes.arena.size]
    exact index_lt_of_bufferOf? owned
  obtain ⟨shape, size, shaped, sized⟩ := Linked.exists_size valid.toLinked inside
  have shapedAfter : after.arena.shape? node = some shape := by
    rw [resumes.arena.shape?]
    exact shaped
  refine ⟨shape, size, shaped, sized, ?_⟩
  rw [reads, ← resumes.meaning valid inside]
  by_cases isLeaf : session.graph.arena.operation? node = some .leaf
  · have isLeafAfter : after.arena.operation? node = some .leaf := by
      rw [resumes.arena.operation?]
      exact isLeaf
    exact ⟨fun _ => reading_leaf validAfter isLeafAfter shapedAfter sized,
      fun empty => absurd isLeaf (stands node empty).2⟩
  · have renews := resumes.renewsAll valid validAfter
    have sortedAfter : Sorted ⟨after, session.pins⟩ hollow :=
      sorted.step renews stands fun _ _ => (or_iff_right not_false).symm
    have result : after.arena.HasResult node := by
      refine ⟨current, ?_⟩
      rw [resumes.arena.operation?]
      exact isLeaf
    exact (sortedAfter node shape size result shapedAfter sized).symm

variable
    {capacity : Nat}
    {device : DeviceId}
    {unsupported : List OpCode}
    {faults : Method → Nat → Option DeviceError}
    {config : Config}

/--
In every session that a run of requests leads to, if none of them gave up the content of a leaf,
whatever else was given up, every value that is answered is the value of its node, unless the
node is hollow: its result was given up and it counts as up to date ever since.  A hollow node
is answered as zeros.
-/
theorem value_of_released
    (reached : (start capacity device unsupported faults config).run commands = session)
    (spares : (start capacity device unsupported faults config).SparesLeaves commands)
    (node : NodeId) :
    (∀ values, (session.step (.value node)).1 = .ok (.values values) →
      session.ReadsAs node
        ((start capacity device unsupported faults config).Hollow node commands) values) ∧
    ∀ index value, (session.step (.valueAt node index)).1 = .ok (.value value) →
      ∃ shape flat values, session.graph.arena.shape? node = some shape ∧
        shape.flatten index = .ok flat ∧ values[flat]? = some value ∧
        session.ReadsAs node
          ((start capacity device unsupported faults config).Hollow node commands) values := by
  have sorted := sorted_run capacity device unsupported faults config commands spares
  have valid := run_valid capacity device unsupported faults config commands
  rw [reached] at sorted valid
  have stands : ∀ node, (start capacity device unsupported faults config).Hollow node commands →
      session.graph.arena.HasResult node := by
    intro node hollow
    rw [← reached]
    exact hollow.hasResult
  constructor
  · intro values answered
    have ends : Ends (perform (.value node)) session
        (fun answer _ => ∀ values, answer = .values values → session.ReadsAs node
          ((start capacity device unsupported faults config).Hollow node commands) values)
        (fun _ _ => True) := by
      show Ends (Answer.values <$> onGraph (Graph.value node)) session _ _
      rw [ends_map_iff, ends_onGraph_iff]
      refine (ends_readOutput_reading valid node).mono ?_ fun _ _ _ => trivial
      rintro values after ⟨resumes, validAfter, current, reads⟩ _ ⟨⟩
      exact sorted.readsAs stands valid validAfter resumes current reads
    exact step_of_ok ends answered values rfl
  · intro index value answered
    have ends : Ends (perform (.valueAt node index)) session
        (fun answer _ => ∀ value, answer = .value value →
          ∃ shape flat values, session.graph.arena.shape? node = some shape ∧
            shape.flatten index = .ok flat ∧ values[flat]? = some value ∧
            session.ReadsAs node
              ((start capacity device unsupported faults config).Hollow node commands) values)
        (fun _ _ => True) := by
      show Ends (Answer.value <$> onGraph (Graph.valueAt node index)) session _ _
      rw [ends_map_iff, ends_onGraph_iff]
      refine (ends_valueAt_of_read (ends_readOutput_reading valid node)).mono ?_
        fun _ _ _ => trivial
      rintro value after ⟨shape, flat, values, shaped, flattened, element, resumes, validAfter,
        current, reads⟩ _ ⟨⟩
      exact ⟨shape, flat, values, shaped, flattened, element,
        sorted.readsAs stands valid validAfter resumes current reads⟩
    exact step_of_ok ends answered value rfl

/-- The result of a product is given up. -/
def releasing : List (Command Int) :=
  scaling ++ [.value ⟨2⟩] ++ [.release ⟨2⟩ .content]

/-- Giving up the product touches no leaf. -/
theorem sparesLeaves_releasing :
    (start 8 ⟨0⟩ [] (fun _ _ => none) { fanIn := 2 }).SparesLeaves releasing := by
  have product : (onIntegers (scaling ++ [.value ⟨2⟩])).graph.arena.operation? ⟨2⟩ =
      some (.binary .mul ⟨0⟩ ⟨1⟩) := by
    cbv
  have computed :
      (onIntegers (scaling ++ [.value ⟨2⟩])).graph.arena.operation? ⟨2⟩ ≠ some .leaf := by
    rw [product]
    rintro ⟨⟩
  refine .append (sparesLeaves_of_emptied?_eq_none ?_) ?_
  · intro command member
    simp only [scaling, List.cons_append, List.nil_append, List.mem_cons, List.not_mem_nil,
      or_false] at member
    rcases member with rfl | rfl | rfl | rfl <;> rfl
  · intro node given
    cases given
    exact computed

/-- After a product was given up one of its factors gets new values. -/
theorem value_of_released_scaling :
    (start 8 ⟨0⟩ [] (fun _ _ => none) { fanIn := 2 }).SparesLeaves
        (releasing ++ [.setValue ⟨0⟩ #[1, 2]]) ∧
      ((onIntegers (releasing ++ [.setValue ⟨0⟩ #[1, 2]])).step (.value ⟨2⟩)).1 =
        .ok (.values #[7, 14]) ∧
      #[7, 14] = (onIntegers (releasing ++ [.setValue ⟨0⟩ #[1, 2]])).graph.meaning ⟨2⟩ 2 := by
  have spares : (start 8 ⟨0⟩ [] (fun _ _ => none) { fanIn := 2 }).SparesLeaves
      (releasing ++ [.setValue ⟨0⟩ #[1, 2]]) :=
    sparesLeaves_releasing.append nofun
  have answered : ((onIntegers (releasing ++ [.setValue ⟨0⟩ #[1, 2]])).step (.value ⟨2⟩)).1 =
      .ok (.values #[7, 14]) := by
    cbv
  have outdated : ((onIntegers (releasing ++ [.setValue ⟨0⟩ #[1, 2]])).graph.arena.node?
      ⟨2⟩).map (·.isCurrent) = some false := by
    cbv
  have full : ¬ (start 8 ⟨0⟩ [] (fun _ _ => none) { fanIn := 2 }).Hollow ⟨2⟩
      (releasing ++ [.setValue ⟨0⟩ #[1, 2]]) := by
    intro hollow
    obtain ⟨found, present, current⟩ := hollow.hasResult.1
    rw [run_eq_onIntegers] at present
    rw [present, Option.map_some, current] at outdated
    cases outdated
  obtain ⟨values, -⟩ := value_of_released (run_eq_onIntegers _) spares ⟨2⟩
  obtain ⟨shape, size, -, -, value, -⟩ := values #[7, 14] answered
  obtain rfl : 2 = size := (congrArg Array.size (value full)).trans (size_meaning ..)
  exact ⟨spares, answered, value full⟩

/--
The result of a product is given up; the product counts as up to date all the same, and zeros are
answered for it where the factors say twenty-one and thirty-five.
-/
theorem released_result_reads_zero :
    ((onIntegers (scaling ++ [.value ⟨2⟩])).step (.value ⟨2⟩)).1 = .ok (.values #[21, 35]) ∧
      ((onIntegers (scaling ++ [.value ⟨2⟩])).step (.release ⟨2⟩ .content)).1 = .ok .done ∧
      ((onIntegers releasing).graph.arena.node? ⟨2⟩).map (·.isCurrent) = some true ∧
      (onIntegers releasing).graph.meaning ⟨2⟩ 2 = #[21, 35] ∧
      ((onIntegers releasing).step (.value ⟨2⟩)).1 = .ok (.values #[0, 0]) := by
  refine ⟨?_, ?_, ?_, ?_, ?_⟩
  · cbv
  · cbv
  · cbv
  · cbv
  · cbv

end Session

end Graph

end Elementwise
