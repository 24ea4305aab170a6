import Elementwise.Table
import Elementwise.Config
import Elementwise.Buffer.Access
import Elementwise.Graph.Key
import Elementwise.Script.Compilation

/-!
# Expression graphs

A graph holds its nodes in an arena.  Operations are interned: a table has
their keys, and creating one whose key is there gives the node that is found.
Constants are in the same table under their bit pattern until they are
overwritten, when their key is looked up in a second one.  Scripts are compiled
when they are first needed and kept.  The store holds the values of nodes.
-/

namespace Elementwise

/-- Nodes, the tables of what is known about them, and their buffers. -/
structure Graph (α : Type) where
  arena : Arena
  /-- The nodes of operations and constants, by their keys. -/
  interned : Std.TreeMap Key NodeId
  /-- The keys of constants that have not been overwritten. -/
  constants : Table NodeId Key
  /-- The scripts compiled so far, by their output. -/
  scripts : Table NodeId Script
  store : Store α
  config : Config

namespace Graph

variable {α : Type} [Element α]

/-- What an action on a graph does: an answer or an error, and the state after it. -/
abbrev Action (α β : Type) := EStateM Error (Graph α) β

/-- A graph without nodes on a given accelerator. -/
def onAccelerator (accelerator : Accelerator α) (config : Config) : Graph α where
  arena := Arena.empty
  interned := ∅
  constants := Table.empty
  scripts := Table.empty
  store := Store.create accelerator
  config := config

/-- A graph without nodes on an accelerator of its own. -/
def ofConfig (config : Config) : Graph α :=
  onAccelerator
    (Accelerator.create (Pool.create config.capacity ⟨0⟩ []) fun _ _ => none) config

/-- An action on the store of a graph. -/
def onStore {β : Type} (action : Store.Action α β) : Action α β :=
  fun graph =>
    match action graph.store with
    | .ok answer store => .ok answer { graph with store := store }
    | .error error store => .error error { graph with store := store }

/-- The answer of a computation without effect. -/
def check {β : Type} (result : Except Error β) : Action α β :=
  match result with
  | .ok answer => pure answer
  | .error error => throw error

/-- The node with a name. -/
def node (node : NodeId) : Action α Node := do
  match (← get).arena.node? node with
  | some found => pure found
  | none => throw (.unknownNode node)

/-- Changes a node. -/
def modifyNode (node : NodeId) (change : Node → Node) : Action α Unit :=
  modify fun graph => { graph with arena := graph.arena.modify node change }

/-- Appends a node to the arena. -/
def push
    (operation : Operation)
    (shape : Shape)
    (needsGradient : Bool) : Action α NodeId :=
  modifyGet fun graph =>
    let (node, arena) := graph.arena.push operation shape needsGradient
    (node, { graph with arena := arena })

/-- The content buffer of a node, which has to have one. -/
def content (node : NodeId) : Action α BufferId := do
  match (← Graph.node node).content? with
  | some buffer => pure buffer
  | none => throw (.inconsistency (.missingContent node))

/-- The gradient buffer of a node. -/
def gradientBuffer (node : NodeId) : Action α BufferId := do
  match (← Graph.node node).gradient? with
  | some buffer => pure buffer
  | none => throw (.noGradient node)

/-- The number of elements of a node. -/
def sizeOf (node : NodeId) : Action α Nat := do
  check (Size.lift (← Graph.node node).shape.size)

end Graph

end Elementwise
