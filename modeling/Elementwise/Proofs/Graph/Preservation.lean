import Elementwise.Graph.Session
import Elementwise.Proofs.Graph.Evaluation

/-!
# Operations of a graph that keep a condition

Most of what an operation does to a graph concerns its arena or its store and
not both.  A condition on one of them is kept by a sequence of actions if it
is kept by each, and an action that only looks things up keeps any condition.
-/

namespace Elementwise.Graph

variable {α β γ : Type}

/-- A condition on the arena of a graph. -/
abbrev OnArena (holds : Arena → Prop) (graph : Graph α) : Prop :=
  holds graph.arena

/-- A condition on the store of a graph. -/
abbrev OnStore (holds : Store α → Prop) (graph : Graph α) : Prop :=
  holds graph.store

section

variable {holds : Graph α → Prop}

theorem preserves_check (result : Except Error β) : Preserves holds (check result : Action α β) :=
  fun _ before => ends_check (fun _ _ => before) fun _ => before

theorem preserves_node (node : NodeId) : Preserves holds (Graph.node node : Action α Node) :=
  fun _ before => ends_node (fun _ _ => before) fun _ => before

theorem preserves_content (node : NodeId) : Preserves holds (content node : Action α BufferId) :=
  fun _ before => ends_content (fun _ _ => before) fun _ => before

theorem preserves_gradientBuffer (node : NodeId) :
    Preserves holds (gradientBuffer node : Action α BufferId) :=
  fun _ before => ends_gradientBuffer (fun _ _ => before) fun _ => before

theorem preserves_dataBuffers (script : Script) :
    Preserves holds (dataBuffers script : Action α (List BufferId)) :=
  .mapM _ preserves_content

theorem preserves_dataTargets (script : Script) :
    Preserves holds (dataTargets script : Action α (List Gradient.Target)) :=
  .bind (.mapM _ fun _ => .bind (preserves_node _) fun _ => .pure _) fun _ => .pure _

theorem preserves_recordTargets (script : Script) :
    Preserves holds (recordTargets script : Action α (List Gradient.Target)) := by
  refine .bind (.mapM _ fun _ => .bind (preserves_node _) fun computed => ?_) fun _ => .pure _
  split
  · exact .pure _
  · exact .pure _

/-- A gradient buffer is made where it is needed. -/
theorem preserves_gradientIfNeeded
    {size : Nat}
    {next : Option BufferId → Action α β}
    (allocates : Preserves holds (onStore (Store.allocate size)))
    (needed : Bool)
    (run : ∀ gradient, Preserves holds (next gradient)) :
    Preserves holds
      (if needed then do
        let gradient ← some <$> onStore (Store.allocate size)
        next gradient
      else do
        let gradient ← pure none
        next gradient) := by
  cases needed with
  | true => exact .bind (.map allocates) run
  | false => exact .bind (.pure none) run

variable
    {output : NodeId}
    (scripts : ∀ graph scripts, holds graph → holds { graph with scripts := scripts })

include scripts

theorem preserves_compile : Preserves holds (compile output : Action α Script) :=
  .bind .get fun _ => .bind (preserves_check _) fun _ =>
    .bind (.modify fun _ before => scripts _ _ before) fun _ => .pure _

theorem preserves_script : Preserves holds (script output : Action α Script) := by
  refine .bind .get fun graph => ?_
  split
  · exact .pure _
  · exact preserves_compile scripts

end

/-- Steps of the store do not concern the arena. -/
theorem preserves_onStore
    {holds : Arena → Prop}
    (action : Store.Action α β) :
    Preserves (OnArena holds) (onStore action) := by
  intro graph before
  rw [ends_onStore_iff]
  unfold Ends
  split
  · exact before
  · exact before

/-- What an action on the store keeps, it keeps inside a graph. -/
theorem preserves_onStore_of
    {holds : Store α → Prop}
    {action : Store.Action α β}
    (preserves : Preserves holds action) :
    Preserves (OnStore holds) (onStore action) := by
  intro graph held
  rw [ends_onStore_iff]
  exact preserves graph.store held

/-! ## Conditions that all operations keep -/

variable [Element α]

/-- The actions on the store of which the operations of a graph consist, allocations apart. -/
inductive Asks : {β : Type} → Store.Action α β → Prop where
  | read (buffer : BufferId) : Asks (Store.read buffer)
  | write (buffer : BufferId) (values : Array α) : Asks (Store.write buffer values)
  | clear (buffer : BufferId) : Asks (Store.clear buffer)
  | checkSupported (script : Script) : Asks script.checkSupported
  | forward (script : Script) (data : List BufferId) (output : BufferId) :
      Asks (script.forward data output)
  | reduceScript
      (script : Script)
      (data : List BufferId)
      (layout : AxisLayout)
      (fanIn : Nat)
      (reduction : Reduction) :
      Asks (reduceScript script data layout fanIn reduction)
  | descend (content gradient : BufferId) (rate : α) : Asks (descend content gradient rate)
  | addAdjoints
      (plan : Plan)
      (data : List BufferId)
      (targets : List Gradient.Target)
      (domain fanIn : Nat) :
      Asks (Gradient.addAdjoints plan data targets domain fanIn)

/--
A condition on graphs that is kept by everything of which operations consist that neither make
a leaf nor change one.
-/
structure Settled (holds : Graph α → Prop) : Prop where
  create : ∀ opcode operands, Preserves holds (Graph.create opcode operands)
  markOutput : ∀ output, Preserves holds (Graph.markOutput output)
  onStore : ∀ {β : Type} {action : Store.Action α β}, Asks action →
    Preserves holds (Graph.onStore action)
  scripts : ∀ graph scripts, holds graph → holds { graph with scripts := scripts }
  current : ∀ graph node, holds graph →
    holds { graph with arena := graph.arena.modify node ({ · with isCurrent := true }) }

/-- A condition on graphs that is kept by all of which operations that make no leaf consist. -/
structure Sustained (holds : Graph α → Prop) : Prop extends Settled holds where
  forgets : ∀ graph leaf key, holds graph → graph.constants.get? leaf = some key →
    holds
      { graph with
        interned := graph.interned.erase key
        constants := graph.constants.erase leaf }
  invalidate : ∀ graph source, holds graph →
    holds { graph with arena := graph.arena.invalidate source }

/-- A condition on graphs that is kept by everything of which the operations consist. -/
structure Upheld (holds : Graph α → Prop) : Prop extends Sustained holds where
  leaf : ∀ shape values trainable, Preserves holds (Graph.leaf shape values trainable)
  scalar : ∀ value, Preserves holds (Graph.scalar value)

namespace Settled

variable
    {holds : Graph α → Prop}
    {output : NodeId}
    (settled : Settled holds)

include settled

theorem chain
    (opcode : OpCode)
    (count : Nat)
    (node : NodeId) :
    Preserves holds (Graph.chain opcode count node) := by
  induction count generalizing node with
  | zero => exact .pure _
  | succ count step => exact .bind (settled.create opcode _) fun next => step next

theorem compile : Preserves holds (Graph.compile output) :=
  preserves_compile settled.scripts

theorem script : Preserves holds (Graph.script output) :=
  preserves_script settled.scripts

theorem materialize : Preserves holds (Graph.materialize output) := by
  refine .bind (settled.markOutput _) fun _ => .bind (preserves_content _) fun target =>
    .bind (preserves_node _) fun found => ?_
  split
  · exact .pure _
  · exact .bind settled.script fun compiled => .bind (preserves_dataBuffers compiled) fun data =>
      .bind (settled.onStore (.forward compiled data target)) fun _ =>
        .bind (.modify fun graph held => settled.current graph _ held) fun _ => .pure _

theorem value : Preserves holds (Graph.value output) :=
  .bind settled.materialize fun target => settled.onStore (.read target)

theorem valueAt (index : List Nat) : Preserves holds (Graph.valueAt output index) := by
  refine .bind (preserves_node _) fun found => .bind (preserves_check _) fun flat =>
    .bind settled.materialize fun target => .bind (settled.onStore (.read target)) fun values => ?_
  split
  · exact .pure _
  · exact .throw _

theorem gradient : Preserves holds (Graph.gradient output) :=
  .bind (preserves_gradientBuffer _) fun buffer => settled.onStore (.read buffer)

theorem zeroGradient : Preserves holds (Graph.zeroGradient output) :=
  .bind (preserves_gradientBuffer _) fun buffer => settled.onStore (.clear buffer)

theorem reduce
    (axis : Option Nat)
    (reduction : Reduction) :
    Preserves holds (Graph.reduce output axis reduction) := by
  refine .bind (preserves_node _) fun found => .bind (preserves_check _) fun axis =>
    .bind (preserves_check _) fun layout => .bind (preserves_check _) fun reduced =>
      .bind (preserves_check _) fun nothing => ?_
  split
  · exact .bind (preserves_check _) fun _ => .pure _
  · exact .bind settled.script fun compiled =>
      .bind (settled.onStore (.checkSupported compiled)) fun _ =>
        .bind (preserves_dataBuffers compiled) fun data => .bind .get fun graph =>
          .bind (settled.onStore (.reduceScript compiled data layout _ reduction)) fun _ => .pure _

theorem backward : Preserves holds (Graph.backward output) := by
  refine .bind settled.materialize fun _ => .bind settled.script fun compiled =>
    .bind (settled.onStore (.checkSupported compiled)) fun _ =>
      .bind (preserves_check _) fun plan =>
        .bind (.bind (preserves_node _) fun _ => preserves_check _) fun domain =>
          .bind (preserves_dataTargets compiled) fun dataTargets =>
            .bind (preserves_recordTargets compiled) fun recordTargets => ?_
  dsimp only
  split
  · exact .pure _
  · exact .bind (preserves_dataBuffers compiled) fun data => .bind .get fun graph =>
      settled.onStore (.addAdjoints plan data _ domain _)

end Settled

namespace Sustained

variable
    {holds : Graph α → Prop}
    {output : NodeId}
    (sustained : Sustained holds)

include sustained

theorem setValue (values : Array α) : Preserves holds (Graph.setValue output values) := by
  refine .bind (preserves_node _) fun found => ?_
  dsimp only
  split
  · exact .throw_bind _
  · refine .bind (preserves_content _) fun buffer =>
      .bind (sustained.onStore (.write buffer values)) fun _ => ?_
    intro graph held
    rw [ends_bind_iff, ends_get_iff]
    split
    next key known =>
      rw [ends_bind_iff, ends_modify_iff, ends_modify_iff]
      exact sustained.invalidate _ output (sustained.forgets graph output key held known)
    · rw [ends_modify_iff]
      exact sustained.invalidate graph output held

theorem applyGradient (rate : α) : Preserves holds (Graph.applyGradient output rate) := by
  refine .bind (preserves_node _) fun found => ?_
  dsimp only
  split
  · exact .throw_bind _
  · exact .bind (preserves_gradientBuffer _) fun gradient =>
      .bind (preserves_content _) fun content =>
        .bind (sustained.onStore (.descend content gradient rate)) fun _ =>
          .modify fun graph held => sustained.invalidate graph output held

end Sustained

/-! ## Requests to a session -/

namespace Session

omit [Element α] in
theorem ends_onGraph_iff
    {session : Session α}
    {action : Graph.Action α β}
    {done : β → Session α → Prop}
    {failed : Error → Session α → Prop} :
    Ends (onGraph action) session done failed ↔
      Ends action session.graph (fun answer graph => done answer { session with graph := graph })
        (fun reason graph => failed reason { session with graph := graph }) := by
  unfold Ends onGraph
  cases action session.graph <;> rfl

omit [Element α] in
theorem preserves_onGraph
    {holds : Graph α → Prop}
    {action : Graph.Action α β}
    (preserves : Preserves holds action) :
    Preserves (fun session : Session α => holds session.graph) (onGraph action) := by
  intro session held
  rw [ends_onGraph_iff]
  exact preserves session.graph held

/-- Whether a request is carried out by an operation of the graph that keeps its nodes. -/
def Command.isOperation : Command α → Bool
  | .clear | .offload .. | .ensure .. | .release .. | .pin .. | .unpin .. => false
  | _ => true

/-- Whether a request makes a leaf or changes the values of one. -/
def Command.concernsLeaf : Command α → Bool
  | .leaf .. | .scalar _ | .setValue .. | .applyGradient .. => true
  | _ => false

omit [Element α] in
/-- What an operation keeps, the request for it keeps, and it gives up no lease. -/
theorem ends_request_of_preserves
    {holds : Graph α → Prop}
    {action : Graph.Action α γ}
    {answer : γ → Answer α}
    (preserves : Preserves holds action)
    {session : Session α}
    (held : holds session.graph) :
    Ends (answer <$> onGraph action) session
      (fun _ after => holds after.graph ∧ after.pins = session.pins)
      (fun _ after => holds after.graph ∧ after.pins = session.pins) := by
  rw [ends_map_iff, ends_onGraph_iff]
  exact (preserves session.graph held).mono (fun _ _ after => ⟨after, rfl⟩)
    fun _ _ after => ⟨after, rfl⟩

/--
What the operations keep that concern no leaf, the requests for them keep, and these give up
no lease.  So it is for the others, where these keep it too.
-/
theorem ends_operation_of_settled
    {holds : Graph α → Prop}
    (settled : Settled holds)
    {session : Session α}
    (held : holds session.graph)
    {command : Command α}
    (operation : command.isOperation = true)
    (leaves : command.concernsLeaf = true → Ends (perform command) session
      (fun _ after => holds after.graph ∧ after.pins = session.pins)
      (fun _ after => holds after.graph ∧ after.pins = session.pins)) :
    Ends (perform command) session
      (fun _ after => holds after.graph ∧ after.pins = session.pins)
      (fun _ after => holds after.graph ∧ after.pins = session.pins) := by
  cases command with
  | leaf => exact leaves rfl
  | scalar => exact leaves rfl
  | create opcode operands => exact ends_request_of_preserves (settled.create opcode operands) held
  | chain opcode count node =>
    exact ends_request_of_preserves (settled.chain opcode count node) held
  | markOutput node => exact ends_request_of_preserves (settled.markOutput node) held
  | script node => exact ends_request_of_preserves settled.script held
  | compile node => exact ends_request_of_preserves settled.compile held
  | value node => exact ends_request_of_preserves settled.value held
  | valueAt node index => exact ends_request_of_preserves (settled.valueAt index) held
  | gradient node => exact ends_request_of_preserves settled.gradient held
  | backward node => exact ends_request_of_preserves settled.backward held
  | applyGradient => exact leaves rfl
  | zeroGradient node => exact ends_request_of_preserves settled.zeroGradient held
  | setValue => exact leaves rfl
  | reduce node axis reduction =>
    exact ends_request_of_preserves (settled.reduce axis reduction) held
  | clear => cases operation
  | offload => cases operation
  | ensure => cases operation
  | release => cases operation
  | pin => cases operation
  | unpin => cases operation

/--
What the operations keep, the requests for them keep, and these give up no lease.  Where no leaf
is asked for, none of the operations that make one has to keep it.
-/
theorem ends_operation_of_sustained
    {holds : Graph α → Prop}
    (sustained : Sustained holds)
    {session : Session α}
    (held : holds session.graph)
    {command : Command α}
    (operation : command.isOperation = true)
    (leaf : ∀ shape values trainable, command = .leaf shape values trainable →
      Preserves holds (Graph.leaf shape values trainable))
    (scalar : ∀ value, command = .scalar value → Preserves holds (Graph.scalar value)) :
    Ends (perform command) session
      (fun _ after => holds after.graph ∧ after.pins = session.pins)
      (fun _ after => holds after.graph ∧ after.pins = session.pins) := by
  refine ends_operation_of_settled sustained.toSettled held operation fun concerns => ?_
  cases command with
  | leaf shape values trainable =>
    exact ends_request_of_preserves (leaf shape values trainable rfl) held
  | scalar value => exact ends_request_of_preserves (scalar value rfl) held
  | setValue node values => exact ends_request_of_preserves (sustained.setValue values) held
  | applyGradient node rate =>
    exact ends_request_of_preserves (sustained.applyGradient rate) held
  | _ => cases concerns

/-- What all operations keep, the requests for them keep, and these give up no lease. -/
theorem ends_operation
    {holds : Graph α → Prop}
    (upheld : Upheld holds)
    {session : Session α}
    (held : holds session.graph)
    {command : Command α}
    (operation : command.isOperation = true) :
    Ends (perform command) session
      (fun _ after => holds after.graph ∧ after.pins = session.pins)
      (fun _ after => holds after.graph ∧ after.pins = session.pins) :=
  ends_operation_of_sustained upheld.toSustained held operation
    (fun shape values trainable _ => upheld.leaf shape values trainable)
    fun value _ => upheld.scalar value

end Session

end Elementwise.Graph
