import Elementwise.Graph.Training

/-!
# Sessions on a graph

A session is a graph together with the leases that its user holds on the
buffers of nodes.  Leases are named by numbers given out in order, one for
each request whether it succeeds or not; each lease keeps a hold of its own on
its buffer, so that it outlives the node.

Every request is a `Command`, so that a run of a session is a list of
commands.
-/

namespace Elementwise.Graph

/-- Which buffer of a node is meant. -/
inductive Part where
  | content
  | gradient
deriving DecidableEq, Repr

/-- A graph and the leases held on its buffers. -/
structure Session (α : Type) where
  graph : Graph α
  /-- The buffers that the user leases. -/
  pins : Array (Option BufferId)

namespace Session

/-- A request to a session. -/
inductive Command (α : Type) where
  | leaf (shape : Shape) (values : Array α) (trainable : Bool)
  | scalar (value : α)
  | create (opcode : OpCode) (operands : List NodeId)
  | chain (opcode : OpCode) (count : Nat) (node : NodeId)
  | markOutput (node : NodeId)
  | script (node : NodeId)
  | compile (node : NodeId)
  | value (node : NodeId)
  | valueAt (node : NodeId) (index : List Nat)
  | gradient (node : NodeId)
  | backward (node : NodeId)
  | applyGradient (node : NodeId) (rate : α)
  | zeroGradient (node : NodeId)
  | setValue (node : NodeId) (values : Array α)
  | reduce (node : NodeId) (axis : Option Nat) (reduction : Reduction)
  | clear
  | offload (target : Nat) (device : Option DeviceId)
  | ensure (node : NodeId) (part : Part) (tier : Tier)
  | release (node : NodeId) (part : Part)
  | pin (node : NodeId) (part : Part) (tier : Tier)
  | unpin (pin : Nat)

/-- The answer to a request that succeeds. -/
inductive Answer (α : Type) where
  | done
  | node (node : NodeId)
  | script (script : Script)
  | values (values : Array α)
  | value (value : α)
  | reduced (shape : Shape) (values : Array α)
  | number (value : Nat)
  | flag (value : Bool)
  | named (index : Nat)
  /-- The node does not have the buffer that was meant. -/
  | noBuffer

variable {α : Type} [Element α]

/-- What a request does to a session. -/
abbrev Action (α β : Type) := EStateM Error (Session α) β

/-- A session on a new graph. -/
def create (graph : Graph α) : Session α := ⟨graph, #[]⟩

/-- An action on the graph of a session. -/
def onGraph {β : Type} (action : Graph.Action α β) : Action α β :=
  fun session =>
    match action session.graph with
    | .ok answer graph => .ok answer { session with graph := graph }
    | .error error graph => .error error { session with graph := graph }

/-- One of the buffers of a node, if it has it. -/
def bufferOf (node : NodeId) (part : Part) : Action α (Option BufferId) := do
  let found ← onGraph (Graph.node node)
  match part with
  | .content => return found.content?
  | .gradient => return found.gradient?

/-- An action on one of the buffers of a node. -/
def onBuffer
    (node : NodeId)
    (part : Part)
    (action : BufferId → Store.Action α Unit) : Action α (Answer α) := do
  match ← bufferOf node part with
  | some buffer =>
      onGraph (onStore (action buffer))
      return .done
  | none => return .noBuffer

/-- Takes the next name of a lease, which stands for nothing yet. -/
def reservePin : Action α Nat :=
  modifyGet fun session =>
    (session.pins.size, { session with pins := session.pins.push none })

/--
Leases one of the buffers of a node under the next name.  A request that does
not lead to a lease uses up its name all the same.
-/
def pinNext (node : NodeId) (part : Part) (tier : Tier) : Action α (Answer α) := do
  let index ← reservePin
  match ← bufferOf node part with
  | none => return .noBuffer
  | some buffer =>
      onGraph (onStore (Store.lease buffer tier))
      modify fun session =>
        { session with
          graph.store := session.graph.store.hold buffer
          pins := session.pins.setIfInBounds index (some buffer) }
      return .named index

/-- Ends a lease, unless it has ended before. -/
def endPin (pin : Nat) (session : Session α) : Session α :=
  match session.pins[pin]? with
  | some (some buffer) =>
      { graph :=
          { session.graph with
            store := (session.graph.store.unpin buffer).drop buffer }
        pins := session.pins.setIfInBounds pin none }
  | _ => session

/-- Carries out a request. -/
def perform (command : Command α) : Action α (Answer α) :=
  match command with
  | .leaf shape values trainable => .node <$> onGraph (Graph.leaf shape values trainable)
  | .scalar value => .node <$> onGraph (Graph.scalar value)
  | .create opcode operands => .node <$> onGraph (Graph.create opcode operands)
  | .chain opcode count node => .node <$> onGraph (Graph.chain opcode count node)
  | .markOutput node => (fun _ => .done) <$> onGraph (Graph.markOutput node)
  | .script node => .script <$> onGraph (Graph.script node)
  | .compile node => .script <$> onGraph (Graph.compile node)
  | .value node => .values <$> onGraph (Graph.value node)
  | .valueAt node index => .value <$> onGraph (Graph.valueAt node index)
  | .gradient node => .values <$> onGraph (Graph.gradient node)
  | .backward node => (fun _ => .done) <$> onGraph (Graph.backward node)
  | .applyGradient node rate => (fun _ => .done) <$> onGraph (Graph.applyGradient node rate)
  | .zeroGradient node => (fun _ => .done) <$> onGraph (Graph.zeroGradient node)
  | .setValue node values => (fun _ => .done) <$> onGraph (Graph.setValue node values)
  | .reduce node axis reduction =>
      (fun (shape, values) => .reduced shape values) <$>
        onGraph (Graph.reduce node axis reduction)
  | .clear => do
      modify fun session => { session with graph := session.graph.clear }
      return .flag ((← get).graph.arena.size == 0)
  | .offload target device =>
      .number <$> onGraph (onStore (Store.offload target device))
  | .ensure node part tier => onBuffer node part (Store.ensure · tier)
  | .release node part => onBuffer node part Store.release
  | .pin node part tier => pinNext node part tier
  | .unpin pin => do
      modify (endPin pin)
      return .done

/-- The answer to a request, and the session after it. -/
def step
    (session : Session α)
    (command : Command α) : Except Error (Answer α) × Session α :=
  match perform command session with
  | .ok answer after => (.ok answer, after)
  | .error error after => (.error error, after)

/-- The session after a run of requests. -/
def run (session : Session α) (commands : List (Command α)) : Session α :=
  commands.foldl (fun session command => (session.step command).2) session

end Session

end Elementwise.Graph
