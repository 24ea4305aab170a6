import Elementwise.Proofs.Graph.Lasting

/-!
# What stands as long as no leaf is overwritten

Nodes are added, marked, given buffers and brought up to date, scripts are kept,
and the store goes its own way.  A condition that none of this ends is kept by
every request that neither overwrites a leaf nor clears the graph.  A new
constant concerns the tables as well, so that it is looked at apart.
-/

namespace Elementwise.Graph

variable {α : Type}

/-! ## Conditions that every step keeps -/

/-- A condition on graphs that is kept by the steps in which nodes are made and evaluated. -/
structure Stepwise [Element α] (holds : Graph α → Prop) : Prop where
  push : ∀ operation shape needsGradient,
    Preserves holds (Graph.push operation shape needsGradient)
  modifyNode : ∀ node change, (∀ found : Node, (change found).nature = found.nature) →
    (∀ found : Node, found.isCurrent = true → (change found).isCurrent = true) →
    Preserves holds (Graph.modifyNode node change)
  allocate : ∀ size, Preserves holds (Graph.onStore (Store.allocate size))
  allocateFrom : ∀ values, Preserves holds (Graph.onStore (Store.allocateFrom values))
  asks : ∀ {β : Type} {action : Store.Action α β}, Asks action →
    Preserves holds (Graph.onStore action)
  scripts : ∀ graph scripts, holds graph → holds { graph with scripts := scripts }
  interned : ∀ graph operation node, holds graph →
    holds { graph with interned := graph.interned.insert (.operation operation) node }

namespace Stepwise

variable
    [Element α]
    {holds : Graph α → Prop}
    (stepwise : Stepwise holds)

include stepwise

theorem create
    (opcode : OpCode)
    (operands : List NodeId) :
    Preserves holds (Graph.create opcode operands) := by
  refine fun graph held => ends_create_of_intern (fun operation shape needsGradient _ => ?_)
    fun _ _ => held
  refine Preserves.bind .get (fun graph => ?_) graph held
  split
  · exact .pure _
  · exact .bind (stepwise.push operation shape needsGradient) fun node =>
      .bind (.modify fun graph held => stepwise.interned graph _ node held) fun _ => .pure _

theorem markOutput (output : NodeId) : Preserves holds (Graph.markOutput output) := by
  refine .bind (preserves_node _) fun found =>
    .bind (stepwise.modifyNode output _ (fun _ => rfl) fun _ current => current) fun _ => ?_
  dsimp only
  split
  · refine .bind (preserves_check _) fun size => .bind (stepwise.allocate _) fun content => ?_
    exact preserves_gradientIfNeeded (stepwise.allocate _) found.needsGradient fun gradient =>
      stepwise.modifyNode output _ (fun _ => rfl) fun _ current => current
  · exact .pure _

/-- A leaf counts as up to date from the beginning. -/
theorem leaf
    (shape : Shape)
    (values : Array α)
    (trainable : Bool) :
    Preserves holds (Graph.leaf shape values trainable) := by
  refine .bind (preserves_check _) fun size => ?_
  dsimp only
  split
  · exact .throw_bind _
  · refine .bind (stepwise.push _ _ _) fun node =>
      .bind (stepwise.allocateFrom _) fun content => ?_
    exact preserves_gradientIfNeeded (stepwise.allocate _) trainable fun gradient =>
      .bind (stepwise.modifyNode node _ (fun _ => rfl) fun _ _ => rfl) fun _ => .pure _

/-- A new constant is a leaf that the tables take note of. -/
theorem scalar
    (tables : ∀ graph interned constants, holds graph →
      holds { graph with interned := interned, constants := constants })
    (value : α) :
    Preserves holds (Graph.scalar value) := by
  refine .bind .get fun graph => ?_
  split
  · exact .pure _
  · refine .bind (stepwise.push _ _ _) fun node =>
      .bind (stepwise.allocateFrom _) fun content => ?_
    exact .bind (stepwise.modifyNode node _ (fun _ => rfl) fun _ _ => rfl) fun _ =>
      .bind (.modify fun graph held => tables graph _ _ held) fun _ => .pure _

/-- Operations that concern no leaf keep what every step keeps. -/
theorem settled : Settled holds where
  create := stepwise.create
  markOutput := stepwise.markOutput
  onStore := stepwise.asks
  scripts := stepwise.scripts
  current graph node held :=
    stepwise.modifyNode node ({ · with isCurrent := true }) (fun _ => rfl) (fun _ _ => rfl) graph
      held

end Stepwise

/-! ## Conditions that concern no store -/

/--
A condition on graphs that concerns no store and no script, and that neither new nodes end nor
changes of nodes after which these count as up to date if they did before.
-/
structure Standing (holds : Graph α → Prop) : Prop where
  push : ∀ graph operation shape needsGradient, holds graph →
    holds { graph with arena := (graph.arena.push operation shape needsGradient).2 }
  modify : ∀ graph node change, (∀ found : Node, (change found).nature = found.nature) →
    (∀ found : Node, found.isCurrent = true → (change found).isCurrent = true) → holds graph →
    holds { graph with arena := graph.arena.modify node change }
  store : ∀ graph store, holds graph → holds { graph with store := store }
  scripts : ∀ graph scripts, holds graph → holds { graph with scripts := scripts }
  interned : ∀ graph operation node, holds graph →
    holds { graph with interned := graph.interned.insert (.operation operation) node }

namespace Standing

variable
    {holds : Graph α → Prop}
    (standing : Standing holds)

include standing

theorem onStore
    {β : Type}
    (action : Store.Action α β) :
    Preserves holds (Graph.onStore action) := by
  intro graph held
  rw [ends_onStore_iff]
  unfold Ends
  split
  · exact standing.store graph _ held
  · exact standing.store graph _ held

theorem stepwise [Element α] : Stepwise holds where
  push operation shape needsGradient := .modifyGet fun graph held =>
    standing.push graph operation shape needsGradient held
  modifyNode node change nature kept := .modify fun graph held =>
    standing.modify graph node change nature kept held
  allocate _ := standing.onStore _
  allocateFrom _ := standing.onStore _
  asks _ := standing.onStore _
  scripts := standing.scripts
  interned := standing.interned

end Standing

namespace Session

/-- Whether a request gives a leaf new values, or removes all nodes. -/
def Command.overwrites : Command α → Bool
  | .setValue .. | .applyGradient .. | .clear => true
  | _ => false

variable
    [Element α]
    {holds : Graph α → Prop}
    {session : Session α}
    {command : Command α}

/--
What stands is kept by every request but the one to clear the graph, if a new constant and a
leaf that is overwritten do not end it here.
-/
theorem ends_perform_of_standing
    (standing : Standing holds)
    (held : holds session.graph)
    (kept : command ≠ .clear)
    (scalar : ∀ value, command = .scalar value →
      Ends (Graph.scalar value) session.graph (fun _ => holds) fun _ => holds)
    (setValue : ∀ leaf values, command = .setValue leaf values →
      Ends (Graph.setValue leaf values) session.graph (fun _ => holds) fun _ => holds)
    (applyGradient : ∀ leaf rate, command = .applyGradient leaf rate →
      Ends (Graph.applyGradient leaf rate) session.graph (fun _ => holds) fun _ => holds) :
    Ends (perform command) session (fun _ after => holds after.graph)
      (fun _ after => holds after.graph) := by
  have request : ∀ {β : Type} {action : Graph.Action α β} {answer : β → Answer α},
      Ends action session.graph (fun _ => holds) (fun _ => holds) →
      Ends (answer <$> onGraph action) session
        (fun _ after => holds after.graph ∧ after.pins = session.pins)
        (fun _ after => holds after.graph ∧ after.pins = session.pins) := by
    intro β action answer ends
    rw [ends_map_iff, ends_onGraph_iff]
    exact ends.mono (fun _ _ after => ⟨after, rfl⟩) fun _ _ after => ⟨after, rfl⟩
  refine ends_perform_of_settled standing.stepwise.settled standing.store held kept
    fun concerns => ?_
  cases command with
  | leaf shape values trainable =>
    exact request (standing.stepwise.leaf shape values trainable session.graph held)
  | scalar value => exact request (scalar value rfl)
  | setValue leaf values => exact request (setValue leaf values rfl)
  | applyGradient leaf rate => exact request (applyGradient leaf rate rfl)
  | _ => cases concerns

end Session

end Elementwise.Graph
