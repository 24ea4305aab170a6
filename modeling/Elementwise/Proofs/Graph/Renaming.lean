import Elementwise.Graph.Training
import Elementwise.Proofs.Buffer.Simulation
import Elementwise.Proofs.Graph.Invalidation

/-!
# Nodes whose buffers have other names

A node knows its buffers by name.  If the buffers of all nodes are renamed,
everything that is found in an arena or compiled from it stays the same, and
every change of an arena is the same change of the renamed one.

No computation on shapes, arenas and scripts fails for the sake of a buffer.
-/

namespace Elementwise

variable {name : BufferId → BufferId}

/-- The same buffers under other names. -/
def Storage.rename (name : BufferId → BufferId) (storage : Storage) : Storage where
  content := name storage.content
  gradient := storage.gradient.map name

/-- The same node, whose buffers have other names. -/
def Node.rename (name : BufferId → BufferId) (node : Node) : Node :=
  { node with storage := node.storage.map (·.rename name) }

namespace Node

theorem content?_rename (node : Node) :
    (node.rename name).content? = node.content?.map name := by
  unfold content? rename
  rw [Option.map_map, Option.map_map]
  rfl

theorem gradient?_rename (node : Node) :
    (node.rename name).gradient? = node.gradient?.map name := by
  unfold gradient? rename
  cases node.storage <;> rfl

theorem addUser_rename (node : Node) (user : NodeId) :
    (node.addUser user).rename name = (node.rename name).addUser user := by
  unfold addUser rename
  dsimp only
  split <;> rfl

end Node

namespace Arena

variable {arena other : Arena}

/-- Arenas with the same nodes are the same. -/
theorem eq_of_node?
    (same : ∀ node, arena.node? node = other.node? node) :
    arena = other := by
  obtain ⟨nodes⟩ := arena
  obtain ⟨others⟩ := other
  exact congrArg Arena.mk (Array.ext_getElem? fun index => same ⟨index⟩)

/-- The same nodes, whose buffers have other names. -/
def rename (name : BufferId → BufferId) (arena : Arena) : Arena :=
  ⟨arena.nodes.map (·.rename name)⟩

theorem rename_empty : empty.rename name = empty :=
  congrArg Arena.mk Array.map_empty

variable (arena)

theorem node?_rename (node : NodeId) :
    (arena.rename name).node? node = (arena.node? node).map (·.rename name) :=
  Array.getElem?_map

theorem alike_rename : arena.Alike (arena.rename name) := by
  intro node
  rw [node?_rename, Option.map_map]
  rfl

theorem rename_modify
    (node : NodeId)
    {change changeOther : Node → Node}
    (same : ∀ found, (change found).rename name = changeOther (found.rename name)) :
    (arena.modify node change).rename name = (arena.rename name).modify node changeOther := by
  refine eq_of_node? fun other => ?_
  rw [node?_rename, node?_modify, node?_modify, node?_rename]
  split
  · rw [Option.map_map, Option.map_map]
    exact Option.map_congr fun found _ => same found
  · rfl

theorem push_rename
    (operation : Operation)
    (shape : Shape)
    (needsGradient : Bool) :
    (arena.rename name).push operation shape needsGradient =
      ((arena.push operation shape needsGradient).1,
        (arena.push operation shape needsGradient).2.rename name) := by
  have size : (arena.rename name).size = arena.size := arena.alike_rename.size
  refine Prod.ext (congrArg NodeId.mk size) (eq_of_node? fun node => ?_)
  rw [node?_rename, node?_push, node?_push, size, node?_rename]
  split
  · rfl
  · rw [Option.map_map, Option.map_map]
    refine Option.map_congr fun found _ => ?_
    dsimp only [Function.comp_apply]
    split
    · exact (found.addUser_rename _).symm
    · rfl

variable {arena}

/-- What can be reached through users depends on nothing else. -/
theorem Alike.reach
    (alike : arena.Alike other)
    (pending : List NodeId)
    (marks : Array Bool) :
    other.reach pending marks = arena.reach pending marks := by
  induction pending, marks using Arena.reach.induct arena with
  | case1 marks => rw [Arena.reach, Arena.reach]
  | case2 marks node pending unset step =>
    rw [Arena.reach, Arena.reach, dif_pos unset, dif_pos unset, alike.users]
    exact step
  | case3 marks node pending set step =>
    rw [Arena.reach, Arena.reach, dif_neg set, dif_neg set]
    exact step

theorem Alike.unmarked (alike : arena.Alike other) : other.unmarked = arena.unmarked := by
  unfold Arena.unmarked
  rw [alike.size]

variable (arena)

theorem rename_invalidate (source : NodeId) :
    (arena.invalidate source).rename name = (arena.rename name).invalidate source := by
  refine eq_of_node? fun node => ?_
  rw [node?_rename, node?_invalidate, node?_invalidate, node?_rename, arena.alike_rename.reach,
    arena.alike_rename.users, arena.alike_rename.unmarked, Option.map_map, Option.map_map]
  refine Option.map_congr fun found _ => ?_
  dsimp only [Function.comp_apply]
  split <;> rfl

variable {arena}

/-! ## Scripts -/

theorem Alike.search
    (alike : arena.Alike other)
    (stack : List Visit)
    (marks : Array Bool)
    (done : List NodeId) :
    other.search stack marks done = arena.search stack marks done := by
  induction stack, marks, done using Arena.search.induct arena with
  | case1 marks done => rw [Arena.search, Arena.search]
  | case2 node stack marks done step =>
    rw [Arena.search, Arena.search]
    exact step
  | case3 node stack marks done unset entered fresh step =>
    rw [Arena.search, Arena.search, dif_pos unset, dif_pos unset, alike.operands]
    exact step
  | case4 node stack marks done set outside =>
    rw [Arena.search, Arena.search, dif_neg set, dif_neg set, if_pos outside, if_pos outside]
  | case5 node stack marks done set inside step =>
    rw [Arena.search, Arena.search, dif_neg set, dif_neg set, if_neg inside, if_neg inside]
    exact step

/-- A script depends on what nodes compute only. -/
theorem Alike.compile
    (alike : arena.Alike other)
    (output : NodeId) :
    Script.compile other output = Script.compile arena output := by
  have notes : ∀ position order usage,
      Script.Usage.noteFrom other position order usage =
        Script.Usage.noteFrom arena position order usage := by
    intro position order
    induction order generalizing position with
    | nil => exact fun _ => rfl
    | cons node order step =>
      intro usage
      rw [Script.Usage.noteFrom, Script.Usage.noteFrom, step, alike.operands]
  have assembles : ∀ usage position order assembly,
      Script.assemble other usage position order assembly =
        Script.assemble arena usage position order assembly := by
    intro usage position order
    induction order generalizing position with
    | nil => exact fun _ => rfl
    | cons node order step =>
      intro assembly
      rw [Script.assemble, Script.assemble, alike.operation?]
      simp only [step]
  unfold Script.compile Arena.schedule Script.Usage.ofOrder
  rw [alike.search, alike.unmarked]
  simp only [notes, assembles]

end Arena

/-! ## Failures that are about no buffer -/

section

variable {α : Type}

theorem nameless_ite
    {condition : Prop}
    [Decidable condition]
    {first second : Except Error α}
    (here : Nameless first)
    (there : Nameless second) :
    Nameless (if condition then first else second) := by
  split
  · exact here
  · exact there

theorem nameless_flatten (shape : Shape) (index : List Nat) : Nameless (shape.flatten index) := by
  have digits : ∀ (components dims : List Nat) (flat : Nat),
      Nameless (Shape.flattenFrom (.indexOutOfRange index shape) flat components dims) := by
    intro components
    induction components with
    | nil => exact fun dims flat => by unfold Shape.flattenFrom; exact nameless_ok
    | cons component components step =>
      intro dims flat
      cases dims with
      | nil => exact nameless_ok
      | cons dim dims =>
        unfold Shape.flattenFrom
        exact nameless_ite (nameless_error fun _ => rfl)
          (nameless_bind (nameless_lift _) fun shifted =>
            nameless_bind (nameless_lift _) fun extended => step dims extended)
  exact nameless_ite (digits _ _ 0) (nameless_error fun _ => rfl)

theorem nameless_broadcast (left right : Shape) : Nameless (left.broadcast right) :=
  nameless_bind (nameless_lift _) fun _ => nameless_ite nameless_ok
    (nameless_bind (nameless_lift _) fun _ => nameless_ite nameless_ok
      (nameless_ite nameless_ok (nameless_error fun _ => rfl)))

theorem nameless_checkAxis (shape : Shape) (axis : Nat) : Nameless (shape.checkAxis axis) :=
  nameless_ite nameless_ok (nameless_error fun _ => rfl)

theorem nameless_withDim (shape : Shape) (axis size : Nat) : Nameless (shape.withDim axis size) :=
  nameless_bind (nameless_checkAxis shape axis) fun _ => nameless_ok

theorem nameless_ofShape (shape : Shape) (axis : Nat) : Nameless (AxisLayout.ofShape shape axis) :=
  nameless_bind (nameless_checkAxis shape axis) fun _ =>
    nameless_bind (nameless_lift _) fun _ => nameless_bind (nameless_lift _) fun _ => nameless_ok

theorem nameless_reducedAxis (shape : Shape) (axis : Option Nat) :
    Nameless (Graph.reducedAxis shape axis) := by
  cases axis with
  | some axis => exact nameless_ok
  | none => exact nameless_ite (nameless_error fun _ => rfl) nameless_ok

theorem nameless_search
    (arena : Arena)
    (stack : List Arena.Visit)
    (marks : Array Bool)
    (done : List NodeId) :
    Nameless (arena.search stack marks done) := by
  induction stack, marks, done using Arena.search.induct arena with
  | case1 marks done =>
    rw [Arena.search]
    exact nameless_ok
  | case2 node stack marks done step =>
    rw [Arena.search]
    exact step
  | case3 node stack marks done unset entered fresh step =>
    rw [Arena.search, dif_pos unset]
    exact step
  | case4 node stack marks done set outside =>
    rw [Arena.search, dif_neg set, if_pos outside]
    exact nameless_error fun _ => rfl
  | case5 node stack marks done set inside step =>
    rw [Arena.search, dif_neg set, if_neg inside]
    exact step

theorem nameless_locate
    (assembly : Script.Assembly)
    (user : NodeId)
    (position : Nat)
    (operand : NodeId) :
    Nameless (assembly.locate user position operand) := by
  unfold Script.Assembly.locate
  split
  · exact nameless_ok
  · split
    · exact nameless_ok
    · exact nameless_error fun _ => rfl

theorem nameless_mapM
    {α β : Type}
    {computation : α → Except Error β}
    (each : ∀ element, Nameless (computation element))
    (element? : Option α) :
    Nameless (element?.mapM computation) := by
  cases element? with
  | none => exact nameless_ok
  | some element => exact nameless_bind (each element) fun _ => nameless_ok

theorem nameless_addRecord
    (usage : Script.Usage)
    (assembly : Script.Assembly)
    (node : NodeId)
    (position : Nat)
    (last : Bool)
    (opcode : OpCode)
    (left : NodeId)
    (right : Option NodeId) :
    Nameless (assembly.addRecord usage node position last opcode left right) :=
  nameless_bind (nameless_locate _ _ _ _) fun _ =>
    nameless_bind (nameless_mapM (nameless_locate _ _ _) _) fun _ => nameless_ok

theorem nameless_compile (arena : Arena) (output : NodeId) :
    Nameless (Script.compile arena output) := by
  have assembled : ∀ usage order position assembly,
      Nameless (Script.assemble arena usage position order assembly) := by
    intro usage order
    induction order with
    | nil => exact fun _ _ => nameless_ok
    | cons node order rest =>
      intro position assembly
      rw [Script.assemble]
      split
      · exact nameless_error fun _ => rfl
      · exact rest _ _
      · exact nameless_bind (nameless_addRecord _ _ _ _ _ _ _ _) fun _ => rest _ _
      · exact nameless_bind (nameless_addRecord _ _ _ _ _ _ _ _) fun _ => rest _ _
  exact nameless_bind (nameless_search _ _ _ _) fun order =>
    nameless_bind (assembled _ order _ _) fun _ => nameless_ok

theorem nameless_ofScript (script : Script) : Nameless (Plan.ofScript script) := by
  have resolved : ∀ index writers slot, Nameless (Plan.resolve index writers slot) := by
    intro index writers slot
    unfold Plan.resolve
    split
    · exact nameless_ok
    · split
      · exact nameless_ok
      · exact nameless_error fun _ => rfl
  have all : ∀ records index writers, Nameless (Plan.resolveFrom index writers records) := by
    intro records
    induction records with
    | nil => exact fun _ _ => nameless_ok
    | cons record records step =>
      exact fun index writers => nameless_bind
        (nameless_bind (resolved _ _ _) fun _ =>
          nameless_bind (nameless_mapM (resolved _ _) _) fun _ => nameless_ok)
        fun _ => nameless_bind (step _ _) fun _ => nameless_ok
  exact nameless_bind (all _ _ _) fun _ => nameless_ok

end

end Elementwise
