import Elementwise.Proofs.Graph.Following

/-!
# Outputs that fit

A node that was brought up to date has shown that its script is supported, and that
its leaves and its content fit on the accelerator together.  This stays so as long as
no further leases begin, whatever is asked of the graph and wherever the buffers are
moved.  Should the same node have to be computed again, on an accelerator that does
not fail, then it can be.
-/

namespace Elementwise

namespace Graph

variable
    {α β : Type}
    [Element α]
    {make : Make}
    {pins : BufferId → Nat}
    {graph : Graph α}
    {output : NodeId}
    {compiled : Script}
    {data : List BufferId}
    {target : BufferId}

/-! ## The buffers of a run -/

omit [Element α] in
/-- The data of a node that is out of date and its content are all different. -/
theorem nodup_forward
    (valid : graph.Valid pins)
    (properly : Script.Compiled graph.arena output compiled)
    (ownedData : List.Forall₂
      (fun leaf buffer => graph.arena.bufferOf? leaf .content = some buffer) compiled.data data)
    (owned : graph.arena.bufferOf? output .content = some target)
    (outdated : ¬ graph.arena.IsCurrent output) :
    (data ++ [target]).Nodup := by
  have distinct := nodup_of_bufferOf? valid ownedData
    (properly.nodup_data valid.arena.ordered valid.arena.proper)
  refine List.nodup_append.2 ⟨distinct, List.nodup_singleton target, ?_⟩
  intro buffer member other isTarget
  obtain rfl := List.mem_singleton.1 isTarget
  obtain ⟨leaf, among, ownedLeaf⟩ := exists_of_forall₂ ownedData.flip buffer member
  have isLeaf := (Arena.mem_leavesOf_iff.1 ((mem_data_iff valid.arena properly).1 among)).2
  exact (content_ne_leaf valid outdated owned isLeaf ownedLeaf).symm

omit [Element α] in
/-- The data of a node and its content are live. -/
theorem exists_claim_forward
    (valid : graph.Valid pins)
    (ownedData : List.Forall₂
      (fun leaf buffer => graph.arena.bufferOf? leaf .content = some buffer) compiled.data data)
    (owned : graph.arena.bufferOf? output .content = some target)
    (buffer : BufferId)
    (member : buffer ∈ data ++ [target]) :
    ∃ claim, graph.store.claim? buffer = some claim := by
  have owner : ∃ node, graph.arena.bufferOf? node .content = some buffer := by
    rcases List.mem_append.1 member with among | isTarget
    · obtain ⟨leaf, -, owned⟩ := exists_of_forall₂ ownedData.flip buffer among
      exact ⟨leaf, owned⟩
    · exact ⟨output, List.mem_singleton.1 isTarget ▸ owned⟩
  obtain ⟨node, owned⟩ := owner
  obtain ⟨size, claimed⟩ := valid.exists_claim owned
  exact ⟨_, claimed⟩

/-! ## Nodes that are ready -/

/-- The script of a node is supported, and its data and the content of the node fit together. -/
structure Ready
    (make : Make)
    (graph : Graph α)
    (output : NodeId)
    (compiled : Script)
    (data : List BufferId)
    (target : BufferId) : Prop where
  compiles : Script.compile graph.arena output = .ok compiled
  supported : compiled.SupportedBy make
  ownedData : List.Forall₂
    (fun leaf buffer => graph.arena.bufferOf? leaf .content = some buffer) compiled.data data
  owned : graph.arena.bufferOf? output .content = some target
  distinct : (data ++ [target]).Nodup
  fits : graph.store.Fits make (data ++ [target])

/-- All nodes that are up to date after something was done were so before, or are ready. -/
def Readies (make : Make) (before after : Graph α) : Prop :=
  ∀ node, after.arena.IsCurrent node → before.arena.IsCurrent node ∨
    ∃ compiled data target, after.Ready make node compiled data target

omit [Element α] in
/-- A node is ready as long as its buffers fit, whatever else happens to the store. -/
theorem Ready.onStore
    (ready : graph.Ready make output compiled data target)
    {makeAfter : Make}
    {store : Store α}
    (unsupported : makeAfter.unsupported = make.unsupported)
    (fits : store.Fits makeAfter (data ++ [target])) :
    Ready makeAfter { graph with store := store } output compiled data target where
  compiles := ready.compiles
  supported record member := unsupported ▸ ready.supported record member
  ownedData := ready.ownedData
  owned := ready.owned
  distinct := ready.distinct
  fits := fits

omit [Element α] in
/-- Steps of both stores after which what was ready fits. -/
theorem Readies.onStores
    {before after : Graph α}
    {makeAfter : Make}
    {store storeAfter : Store α}
    (readies : before.Readies make after)
    (unsupported : makeAfter.unsupported = make.unsupported)
    (fits : ∀ {output compiled data target}, after.Ready make output compiled data target →
      storeAfter.Fits makeAfter (data ++ [target])) :
    Readies makeAfter { before with store := store } { after with store := storeAfter } :=
  fun node current => (readies node current).imp_right fun ⟨compiled, data, target, ready⟩ =>
    ⟨compiled, data, target, ready.onStore unsupported (fits ready)⟩

/-! ## Operations that make nodes ready -/

section

variable
    (valid : graph.Valid pins)
    (accounted : graph.store.Accounted make ∅)

include valid accounted

/-- A node that is brought up to date is ready. -/
theorem ends_compute_readies
    (owned : graph.arena.bufferOf? output .content = some target)
    (outdated : ¬ graph.arena.IsCurrent output) :
    Ends
      (do
        let compiled ← script output
        let data ← dataBuffers compiled
        onStore (compiled.forward data target)
        modifyNode output ({ · with isCurrent := true })
        return target)
      graph
      (fun _ after => graph.Readies make after)
      (fun _ after => after.arena = graph.arena) := by
  rw [ends_bind_iff]
  refine (ends_script valid output).mono ?_ fun _ _ same => same ▸ rfl
  rintro compiled middle ⟨first, sameArena, sameStore, inside, compiles, properly⟩
  rw [← sameArena] at owned outdated compiles properly ⊢
  rw [← sameStore] at accounted
  rw [ends_bind_iff]
  refine (ends_dataBuffers compiled).mono ?_ fun _ _ same => same ▸ rfl
  rintro data middle ⟨rfl, ownedData⟩
  obtain ⟨shape, size, shaped, sized⟩ := first.valid.exists_size (sameArena ▸ inside)
  have distinct := nodup_forward first.valid properly ownedData owned outdated
  rw [ends_bind_iff, ends_onStore_iff]
  refine ((ends_forward_meaning first.valid properly ownedData owned outdated shaped sized).and
    ((Script.within_forward compiled data target middle.store accounted.within).and
      (Script.ends_forward_fits accounted distinct
        (exists_claim_forward first.valid ownedData owned)))).mono ?_ fun _ _ _ => rfl
  rintro _ store ⟨⟨frame, -⟩, within, supported, fits⟩
  rw [ends_bind_iff, ends_modifyNode_iff, ends_pure_iff]
  have alike := middle.arena.alike_modify output ({ · with isCurrent := true }) fun _ => rfl
  have buffers : ∀ node part,
      (middle.arena.modify output ({ · with isCurrent := true })).bufferOf? node part =
        middle.arena.bufferOf? node part :=
    Arena.bufferOf?_modify_of_same output fun _ => rfl
  intro node current
  rcases (isCurrent_modify_true (index_lt_of_bufferOf? owned) node).1 current with rfl | already
  · refine .inr ⟨compiled, data, target, ?_⟩
    exact
      { compiles := (alike.compile node).trans compiles
        supported := supported
        ownedData := ownedData.imp fun leaf buffer here => (buffers leaf .content).trans here
        owned := (buffers node .content).trans owned
        distinct := distinct
        fits := fits.still accounted within.accounted rfl distinct frame }
  · exact .inl (sameArena ▸ already)

/-- An evaluation makes no other node count as up to date than one that is ready. -/
theorem ends_materialize_readies (output : NodeId) :
    Ends (materialize output) graph
      (fun _ after => graph.Readies make after)
      (fun _ after => graph.Readies make after) := by
  have unchanged : graph.Readies make graph := fun _ => .inl
  unfold materialize
  rw [ends_bind_iff]
  refine ((ends_markOutput valid output).and ((upheld_within.markOutput output graph
    accounted.within).and (ends_markOutput_resumes valid output))).mono ?_
      fun _ _ failed => failed.2.2 ▸ unchanged
  rintro _ marked ⟨⟨first, -, flags, -⟩, books, -⟩
  have readies : ∀ {after : Graph α}, marked.Readies make after → graph.Readies make after :=
    fun later node current => (later node current).imp_left (flags node).1
  have still : ∀ {after : Graph α}, after.arena = marked.arena → graph.Readies make after :=
    fun same node current => .inl ((flags node).1 (same ▸ current))
  rw [ends_bind_iff]
  refine ends_content ?_ fun _ => still rfl
  intro target owned
  rw [ends_bind_iff]
  refine ends_node ?_ fun _ => still rfl
  intro found present
  split
  next => exact still rfl
  next notUpToDate =>
    exact (ends_compute_readies first.valid books.accounted owned fun current =>
      notUpToDate ((Arena.isCurrent_iff present).1 current)).mono (fun _ _ later => readies later)
        fun _ _ same => still same

/-- A node is read after it was brought up to date. -/
theorem ends_readOutput_readies (output : NodeId) :
    Ends
      (do
        let target ← materialize output
        onStore (Store.read target))
      graph
      (fun _ after => graph.Readies make after)
      (fun _ after => graph.Readies make after) := by
  rw [ends_bind_iff]
  refine ((ends_materialize_readies valid accounted output).and
    ((ends_materialize_resumes valid output).and
      (upheld_within.materialize graph accounted.within))).mono ?_ fun _ _ failed => failed.1
  rintro target middle ⟨readies, ⟨-, validMiddle⟩, books⟩
  have moved : ∀ {store : Store α}, Store.Frame ∅ ∅ middle.store store →
      store.Accounted make ∅ → graph.Readies make { middle with store := store } :=
    fun frame counted => readies.onStores rfl fun ready =>
      ready.fits.still books.accounted counted rfl ready.distinct frame
  rw [ends_onStore_iff]
  exact ((Store.ends_read validMiddle.store).and
    (Store.within_read middle.store books)).mono
      (fun _ _ ⟨⟨frame, _⟩, within⟩ => moved frame within.accounted)
      fun _ _ ⟨frame, within⟩ => moved frame within.accounted

theorem ends_valueAt_readies
    (output : NodeId)
    (index : List Nat) :
    Ends (valueAt output index) graph
      (fun _ after => graph.Readies make after)
      (fun _ after => graph.Readies make after) := by
  have unchanged : graph.Readies make graph := fun _ => .inl
  have read := ends_readOutput_readies valid accounted output
  unfold valueAt
  rw [ends_bind_iff]
  refine ends_node ?_ fun _ => unchanged
  intro found _
  rw [ends_bind_iff]
  refine ends_check ?_ fun _ => unchanged
  intro flat _
  simp only [← bind_assoc]
  rw [ends_bind_iff]
  refine read.mono ?_ fun _ _ readies => readies
  intro values after readies
  split
  · exact readies
  · exact readies

end

/-! ## Requests that fail -/

namespace Session

variable
    {session : Session α}
    {command : Command α}
    (valid : session.Valid)
    (repeatable : command.isRepeatable = true)

/-- Whether a request is for the value of a node. -/
def Command.evaluates : Command α → Bool
  | .value _ | .valueAt .. => true
  | _ => false

include valid repeatable

/-- A request that fails leaves the nodes alone, unless it is for the value of one. -/
theorem ends_perform_nodes (other : command.evaluates = false) :
    Ends (perform command) session (fun _ _ => True)
      (fun _ after => after.graph.arena = session.graph.arena) := by
  have request : ∀ {β : Type} {action : Graph.Action α β} {answer : β → Answer α},
      Ends action session.graph (fun _ _ => True)
        (fun _ after => after.arena = session.graph.arena) →
      Ends (answer <$> onGraph action) session (fun _ _ => True)
        (fun _ after => after.graph.arena = session.graph.arena) := by
    intro β action answer ends
    rw [ends_map_iff, ends_onGraph_iff]
    exact ends
  have kept : ∀ {β : Type} {node : NodeId} {action : BufferId → Store.Action α β},
      Ends (gradientBuffer node >>= fun buffer => onStore (action buffer)) session.graph
        (fun _ _ => True) (fun _ after => after.arena = session.graph.arena) := by
    intro β node action
    have preserves : Preserves (OnArena (· = session.graph.arena))
        (gradientBuffer node >>= fun buffer => onStore (action buffer)) :=
      .bind (preserves_gradientBuffer node) fun _ => preserves_onStore _
    exact (preserves session.graph rfl).mono (fun _ _ _ => trivial) fun _ _ same => same
  cases command with
  | leaf shape values trainable =>
    exact request ((ends_leaf_unchanged shape values trainable).mono (fun _ _ _ => trivial)
      fun _ _ same => same ▸ rfl)
  | create opcode operands =>
    exact request ((ends_create_unchanged opcode operands).mono (fun _ _ _ => trivial)
      fun _ _ same => same ▸ rfl)
  | markOutput node =>
    exact request ((ends_markOutput_resumes valid node).mono (fun _ _ _ => trivial)
      fun _ _ same => same ▸ rfl)
  | script node =>
    exact request ((ends_script valid node).mono (fun _ _ _ => trivial) fun _ _ same => same ▸ rfl)
  | compile node =>
    exact request ((ends_compile valid node).mono (fun _ _ _ => trivial)
      fun _ _ failed => failed.1 ▸ rfl)
  | gradient node => exact request kept
  | zeroGradient node => exact request kept
  | applyGradient node rate =>
    exact request ((ends_applyGradient_descended valid node rate).mono (fun _ _ _ => trivial)
      fun _ _ ⟨_, _, same⟩ => same ▸ rfl)
  | setValue node values =>
    exact request ((ends_setValue_overwrites valid node values).mono (fun _ _ _ => trivial)
      fun _ _ ⟨_, _, same⟩ => same ▸ rfl)
  | reduce node axis reduction =>
    exact request ((ends_reduce_folds valid node axis reduction).mono (fun _ _ _ => trivial)
      fun _ _ untouched => untouched.arena)
  | value => cases other
  | valueAt => cases other
  | _ => cases repeatable

/-- After a request that fails, no other node counts as up to date than one that is ready. -/
theorem ends_perform_readies (accounted : session.graph.store.Accounted make ∅) :
    Ends (perform command) session (fun _ _ => True)
      (fun _ after => session.graph.Readies make after.graph) := by
  have request : ∀ {β : Type} {action : Graph.Action α β} {answer : β → Answer α},
      Ends action session.graph (fun _ after => session.graph.Readies make after)
        (fun _ after => session.graph.Readies make after) →
      Ends (answer <$> onGraph action) session (fun _ _ => True)
        (fun _ after => session.graph.Readies make after.graph) := by
    intro β action answer ends
    rw [ends_map_iff, ends_onGraph_iff]
    exact ends.mono (fun _ _ _ => trivial) fun _ _ readies => readies
  cases other : command.evaluates with
  | false =>
    exact (ends_perform_nodes valid repeatable other).mono (fun _ _ _ => trivial)
      fun _ after same node current => .inl (same ▸ current)
  | true =>
    cases command with
    | value node => exact request (ends_readOutput_readies valid accounted node)
    | valueAt node index => exact request (ends_valueAt_readies valid accounted node index)
    | _ => cases other

end Session

end Graph

end Elementwise
