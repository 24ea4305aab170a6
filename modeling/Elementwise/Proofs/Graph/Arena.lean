import Elementwise.Proofs.Script.Placement

/-!
# Sound arenas

An arena is sound if its nodes fit together: operands lie before their users,
the users of a node are exactly the nodes that have it as an operand, codes fit
the number of operands, and the shape of an operand is that of its user or has
a single element.

New nodes keep an arena sound.  All other changes concern flags and storage
only, and do not touch what soundness is about.
-/

namespace Elementwise

namespace Node

/-- The part of a node that says what it is, apart from its flags and its storage. -/
def core (node : Node) : Operation × Shape × List NodeId :=
  (node.operation, node.shape, node.users)

theorem mem_users_addUser
    (node : Node)
    (user other : NodeId) :
    other ∈ (node.addUser user).users ↔ other ∈ node.users ∨ other = user := by
  unfold addUser
  split
  next latest =>
    constructor
    · exact Or.inl
    · rintro (member | rfl)
      · exact member
      · exact List.mem_of_getLast? latest
  next => simp

theorem addUser_addUser
    (node : Node)
    (user : NodeId) :
    (node.addUser user).addUser user = node.addUser user := by
  have latest : (node.addUser user).users.getLast? = some user := by
    unfold addUser
    split
    next latest => exact latest
    next => simp
  rw [addUser, if_pos latest]

/-- A new user changes nothing else. -/
theorem addUser_eq (node : Node) (user : NodeId) :
    node.addUser user = { node with users := (node.addUser user).users } := by
  unfold addUser
  split <;> rfl

end Node

namespace Arena

variable {arena : Arena}

/-- The shape of a node. -/
def shape? (arena : Arena) (node : NodeId) : Option Shape :=
  (arena.node? node).map (·.shape)

/-- How the nodes of an arena fit together. -/
structure Sound (arena : Arena) : Prop where
  ordered : arena.Ordered
  proper : ∀ node operation, arena.operation? node = some operation → operation.Proper
  users : ∀ node user, user ∈ arena.users node ↔ node ∈ arena.operands user
  sized : ∀ node shape, arena.shape? node = some shape → ∃ size, shape.size = .ok size
  /-- An operand has the shape of its user, or a single element. -/
  broadcast : ∀ node shape operand below, arena.shape? node = some shape →
    operand ∈ arena.operands node → arena.shape? operand = some below →
    below = shape ∨ below.size = .ok 1

theorem sound_empty : empty.Sound where
  ordered _ _ member := by cases member
  proper _ _ found := by cases found
  users node user := by
    constructor
    · exact fun member => by cases member
    · exact fun member => by cases member
  sized _ _ found := by cases found
  broadcast _ _ _ _ found := by cases found

/-- What a node depends on has its shape, or a single element. -/
theorem Sound.shape_of_dependsOn
    (sound : arena.Sound)
    {node other : NodeId}
    (depends : arena.DependsOn node other)
    {shape below : Shape}
    (found : arena.shape? node = some shape)
    (foundBelow : arena.shape? other = some below) :
    below = shape ∨ below.size = .ok 1 := by
  induction depends using Relation.ReflTransGen.head_induction_on generalizing shape with
  | refl =>
    rw [found] at foundBelow
    exact .inl (Option.some.inj foundBelow).symm
  | @head node operand isOperand _ step =>
    have shaped : ∃ middle, arena.shape? operand = some middle := by
      have inside : operand.index < arena.size :=
        Nat.lt_trans (sound.ordered node operand isOperand) (lt_size_of_mem_operands isOperand)
      obtain ⟨value, present⟩ := Option.isSome_iff_exists.1 ((node?_isSome_iff operand).2 inside)
      exact ⟨value.shape, by rw [shape?, present, Option.map_some]⟩
    obtain ⟨middle, foundMiddle⟩ := shaped
    rcases sound.broadcast node shape operand middle found isOperand foundMiddle with rfl | single
    · exact step foundMiddle
    · rcases step foundMiddle with rfl | single
      · exact .inr single
      · exact .inr single

/-! ## Changes of flags and storage -/

/-- Arenas that agree in everything but flags and storage. -/
def Alike (arena other : Arena) : Prop :=
  ∀ node, (other.node? node).map Node.core = (arena.node? node).map Node.core

namespace Alike

variable {other : Arena}

theorem refl (arena : Arena) : arena.Alike arena :=
  fun _ => rfl

theorem trans
    {last : Arena}
    (first : arena.Alike other)
    (second : other.Alike last) :
    arena.Alike last :=
  fun node => (second node).trans (first node)

theorem operation? (alike : arena.Alike other) : other.operation? = arena.operation? := by
  funext node
  have same := congrArg (Option.map (·.1)) (alike node)
  rwa [Option.map_map, Option.map_map] at same

theorem shape? (alike : arena.Alike other) : other.shape? = arena.shape? := by
  funext node
  have same := congrArg (Option.map (·.2.1)) (alike node)
  rwa [Option.map_map, Option.map_map] at same

theorem users (alike : arena.Alike other) : other.users = arena.users := by
  have users_eq : ∀ (any : Arena) (node : NodeId),
      any.users node = ((any.node? node).map fun found => found.core.2.2).getD [] := by
    intro any node
    unfold Arena.users
    cases any.node? node <;> rfl
  funext node
  have same := congrArg (Option.map (·.2.2)) (alike node)
  rw [Option.map_map, Option.map_map] at same
  rw [users_eq, users_eq]
  exact congrArg (Option.getD · []) same

theorem operands (alike : arena.Alike other) : other.operands = arena.operands := by
  funext node
  rw [Arena.operands, Arena.operands, alike.operation?]

theorem dependsOn (alike : arena.Alike other) : other.DependsOn = arena.DependsOn := by
  unfold DependsOn
  rw [alike.operands]

theorem size (alike : arena.Alike other) : other.size = arena.size := by
  have inside : ∀ index, index < other.size ↔ index < arena.size := by
    intro index
    have same := congrArg Option.isSome (alike ⟨index⟩)
    rw [Option.isSome_map, Option.isSome_map] at same
    rw [← node?_isSome_iff ⟨index⟩, ← node?_isSome_iff ⟨index⟩, same]
  have first := inside other.size
  have second := inside arena.size
  omega

theorem extension (alike : arena.Alike other) : arena.Extends other :=
  fun node _ => congrFun alike.operation? node

theorem sound (alike : arena.Alike other) (sound : arena.Sound) : other.Sound where
  ordered node operand member := by
    rw [alike.operands] at member
    exact sound.ordered node operand member
  proper := by
    rw [alike.operation?]
    exact sound.proper
  users := by
    rw [alike.users, alike.operands]
    exact sound.users
  sized := by
    rw [alike.shape?]
    exact sound.sized
  broadcast := by
    rw [alike.shape?, alike.operands]
    exact sound.broadcast

end Alike

theorem node?_modify (arena : Arena) (node other : NodeId) (change : Node → Node) :
    (arena.modify node change).node? other =
      if node = other then (arena.node? other).map change else arena.node? other := by
  rw [node?, modify, Array.getElem?_modify]
  have same : node.index = other.index ↔ node = other := by
    cases node
    cases other
    simp
  simp only [same, node?]

theorem alike_modify
    (arena : Arena)
    (node : NodeId)
    (change : Node → Node)
    (keeps : ∀ found, (change found).core = found.core) :
    arena.Alike (arena.modify node change) := by
  intro other
  rw [node?_modify]
  split
  · rw [Option.map_map]
    exact Option.map_congr fun found _ => keeps found
  · rfl

/-! ## New nodes -/

theorem node?_of_size_le
    {node : NodeId}
    (outside : arena.size ≤ node.index) :
    arena.node? node = none :=
  Array.getElem?_eq_none outside

theorem node?_foldl_modify
    (arena : Arena)
    (operands : List NodeId)
    (user node : NodeId) :
    (operands.foldl (fun (arena : Arena) operand => arena.modify operand (·.addUser user))
        arena).node? node =
      (arena.node? node).map fun found =>
        if node ∈ operands then found.addUser user else found := by
  induction operands generalizing arena with
  | nil => simp
  | cons operand operands step =>
    rw [List.foldl_cons, step, node?_modify]
    by_cases same : operand = node
    · subst same
      rw [if_pos rfl, Option.map_map]
      refine Option.map_congr fun found _ => ?_
      simp only [Function.comp_apply, List.mem_cons, true_or, if_true]
      split
      · exact found.addUser_addUser user
      · rfl
    · rw [if_neg same]
      refine Option.map_congr fun found _ => ?_
      simp only [List.mem_cons, Ne.symm same, false_or]

theorem size_foldl_modify
    (arena : Arena)
    (operands : List NodeId)
    (user : NodeId) :
    (operands.foldl (fun (arena : Arena) operand => arena.modify operand (·.addUser user))
      arena).size = arena.size := by
  induction operands generalizing arena with
  | nil => rfl
  | cons operand operands step =>
    rw [List.foldl_cons, step]
    exact Array.size_modify

section

variable
    (arena : Arena)
    (operation : Operation)
    (shape : Shape)
    (needsGradient : Bool)

theorem size_push : (arena.push operation shape needsGradient).2.size = arena.size + 1 := by
  rw [push, size, Array.size_push]
  exact congrArg (· + 1) (size_foldl_modify ..)

/-- The new node is at the end, and its operands know it as a user. -/
theorem node?_push (node : NodeId) :
    (arena.push operation shape needsGradient).2.node? node =
      if node.index = arena.size then
        some
          { operation, shape, users := [], isOutput := false, needsGradient
            isCurrent := false, storage := none }
      else
        (arena.node? node).map fun found =>
          if node ∈ operation.operands then found.addUser ⟨arena.size⟩ else found := by
  have size := size_foldl_modify arena operation.operands ⟨arena.size⟩
  have old := node?_foldl_modify arena operation.operands ⟨arena.size⟩ node
  rw [push, node?, Array.getElem?_push]
  refine (if_congr (Eq.congr_right size) rfl ?_)
  exact old

theorem operation?_push (node : NodeId) :
    (arena.push operation shape needsGradient).2.operation? node =
      if node.index = arena.size then some operation else arena.operation? node := by
  rw [operation?, node?_push]
  split
  · rfl
  · rw [Option.map_map, operation?]
    refine Option.map_congr fun found _ => ?_
    rw [Function.comp_apply]
    split
    · rw [Node.addUser_eq]
    · rfl

theorem shape?_push (node : NodeId) :
    (arena.push operation shape needsGradient).2.shape? node =
      if node.index = arena.size then some shape else arena.shape? node := by
  rw [shape?, node?_push]
  split
  · rfl
  · rw [Option.map_map, shape?]
    refine Option.map_congr fun found _ => ?_
    rw [Function.comp_apply]
    split
    · rw [Node.addUser_eq]
    · rfl

theorem operands_push (node : NodeId) :
    (arena.push operation shape needsGradient).2.operands node =
      if node.index = arena.size then operation.operands else arena.operands node := by
  rw [operands, operation?_push]
  by_cases last : node.index = arena.size
  · rw [if_pos last, if_pos last]
  · rw [if_neg last, if_neg last, operands]

variable {arena operation}

theorem mem_users_push
    (inside : ∀ operand ∈ operation.operands, operand.index < arena.size)
    (node user : NodeId) :
    user ∈ (arena.push operation shape needsGradient).2.users node ↔
      user ∈ arena.users node ∨ user = ⟨arena.size⟩ ∧ node ∈ operation.operands := by
  rw [users, node?_push]
  by_cases last : node.index = arena.size
  · have absent : node ∉ operation.operands := by
      intro member
      exact absurd (inside node member) (Nat.not_lt_of_le (Nat.le_of_eq last.symm))
    rw [if_pos last, users, node?_of_size_le (Nat.le_of_eq last.symm)]
    simp [absent]
  · rw [if_neg last, users]
    cases found : arena.node? node with
    | none =>
      have absent : node ∉ operation.operands := by
        intro member
        have present := (node?_isSome_iff node).2 (inside node member)
        rw [found] at present
        cases present
      simp [absent]
    | some value =>
      show user ∈ (if node ∈ operation.operands then value.addUser ⟨arena.size⟩ else value).users ↔
        user ∈ value.users ∨ _
      split
      next member => simp [Node.mem_users_addUser, member]
      next absent => simp [absent]

theorem extends_push : arena.Extends (arena.push operation shape needsGradient).2 := by
  intro node inside
  rw [operation?_push, if_neg (Nat.ne_of_lt inside)]

/-- A new node over existing ones keeps the arena sound. -/
theorem Sound.push
    (sound : arena.Sound)
    (inside : ∀ operand ∈ operation.operands, operand.index < arena.size)
    (proper : operation.Proper)
    (sized : ∃ size, shape.size = .ok size)
    (broadcast : ∀ operand ∈ operation.operands, ∀ below, arena.shape? operand = some below →
      below = shape ∨ below.size = .ok 1) :
    (arena.push operation shape needsGradient).2.Sound where
  ordered node operand member := by
    rw [operands_push] at member
    split at member
    next last => exact last ▸ inside operand member
    · exact sound.ordered node operand member
  proper node other found := by
    rw [operation?_push] at found
    split at found
    · cases found
      exact proper
    · exact sound.proper node other found
  users node user := by
    rw [mem_users_push shape needsGradient inside, operands_push, sound.users]
    have last : user = ⟨arena.size⟩ ↔ user.index = arena.size := by
      cases user
      simp
    rw [last]
    by_cases new : user.index = arena.size
    · have none : arena.operands user = [] := by
        rw [Arena.operands, Arena.operation?, node?_of_size_le (Nat.le_of_eq new.symm)]
        rfl
      simp [new, none]
    · simp [new]
  sized node found shaped := by
    rw [shape?_push] at shaped
    split at shaped
    · cases shaped
      exact sized
    · exact sound.sized node found shaped
  broadcast node found operand below shaped member shapedBelow := by
    rw [operands_push] at member
    rw [shape?_push] at shaped shapedBelow
    have older : operand.index < arena.size := by
      split at member
      · exact inside operand member
      · exact Nat.lt_trans (sound.ordered node operand member) (lt_size_of_mem_operands member)
    rw [if_neg (Nat.ne_of_lt older)] at shapedBelow
    split at member
    next last =>
      rw [if_pos last] at shaped
      cases shaped
      exact broadcast operand member below shapedBelow
    next last =>
      rw [if_neg last] at shaped
      exact sound.broadcast node found operand below shaped member shapedBelow

end

end Arena

end Elementwise
