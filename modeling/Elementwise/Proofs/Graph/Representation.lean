import Elementwise.Proofs.Graph.Room
import Elementwise.Proofs.Reduction.Bounds

/-!
# How a graph represents an expression

The users of a node are listed once each, in the order in which they were made,
and gradients are needed on a node just if it depends on a leaf that was asked
for to be trained.  Buffers are as long as the shape of their node says.

Every node that another one depends on has the shape of that node or a single
element, so that no kernel reads beyond the end of one of its inputs or of its
workspace.
-/

namespace Elementwise

namespace Arena

variable
    {arena other : Arena}
    {node : NodeId}

/-! ## Users in the order of their making -/

/-- The users of a node stand in the order of their positions. -/
def Increasing (arena : Arena) : Prop :=
  ∀ node, (arena.users node).Pairwise fun user later => user.index < later.index

theorem lasting_increasing : Lasting fun arena => arena.Sound ∧ arena.Increasing where
  sound _ held := held.1
  akin arena other akin held := by
    refine ⟨akin.alike.sound held.1, ?_⟩
    unfold Increasing
    rw [akin.alike.users]
    exact held.2
  push arena operation shape needsGradient held _ sound := by
    refine ⟨sound, fun node => ?_⟩
    rw [users, node?_push]
    split
    next found present =>
      split at present
      next =>
        cases present
        exact .nil
      next =>
        obtain ⟨old, before, rfl⟩ := Option.map_eq_some_iff.1 present
        have users : arena.users node = old.users := by rw [users, before]
        have sorted : old.users.Pairwise fun user later => user.index < later.index :=
          users ▸ held.2 node
        split
        · unfold Node.addUser
          split
          · exact sorted
          · refine List.pairwise_append.2 ⟨sorted, List.pairwise_singleton .., ?_⟩
            intro user member latest last
            rw [List.mem_singleton.1 last]
            rw [← users] at member
            exact lt_size_of_mem_operands ((held.1.users node user).1 member)
        · exact sorted
    next => exact .nil

/-! ## Where gradients are needed -/

/-- Gradients are needed on the result of an operation just if they are on one of its operands. -/
def Inherits (arena : Arena) : Prop :=
  ∀ node operation flag, arena.operation? node = some operation → operation ≠ .leaf →
    arena.needsGradient? node = some flag →
    (flag = true ↔ ∃ operand ∈ operation.operands, arena.needsGradient? operand = some true)

theorem inherits_of_applies
    {opcode : OpCode}
    {operands : List NodeId}
    {operation : Operation}
    {shape : Shape}
    {flag : Bool}
    (applies : Graph.Applies arena opcode operands operation shape flag) :
    flag = true ↔ ∃ operand ∈ operation.operands, arena.needsGradient? operand = some true := by
  cases applies with
  | @unary operand found computes arity present =>
    simp [Operation.operands, needsGradient?, present]
  | @binary left right foundLeft foundRight shape computes arity presentLeft presentRight _ =>
    simp [Operation.operands, needsGradient?, presentLeft, presentRight]

theorem lasting_inherits : Lasting fun arena => arena.Sound ∧ arena.Inherits where
  sound _ held := held.1
  akin arena other akin held := by
    refine ⟨akin.alike.sound held.1, ?_⟩
    unfold Inherits
    rw [akin.alike.operation?, akin.needsGradient?]
    exact held.2
  push arena operation shape needsGradient held made sound := by
    refine ⟨sound, fun node found flag computes computed flagged => ?_⟩
    rw [operation?_push] at computes
    rw [needsGradient?_push] at flagged
    have earlier : ∀ operand ∈ found.operands, operand.index ≠ arena.size := by
      intro operand member
      have among : operand ∈ (arena.push operation shape needsGradient).2.operands node := by
        rw [operands, operation?_push, computes]
        exact member
      exact index_ne_size_of_mem_operands sound among
    have kept : (∃ operand ∈ found.operands,
          (arena.push operation shape needsGradient).2.needsGradient? operand = some true) ↔
        ∃ operand ∈ found.operands, arena.needsGradient? operand = some true := by
      refine exists_congr fun operand => and_congr_right fun member => ?_
      rw [needsGradient?_push, if_neg (earlier operand member)]
    rw [kept]
    split at computes
    next last =>
      rw [if_pos last] at flagged
      cases computes
      cases flagged
      obtain ⟨opcode, operands, applies⟩ := made computed
      exact inherits_of_applies applies
    next old =>
      rw [if_neg old] at flagged
      exact held.2 node found flag computes computed flagged

/-- A leaf on which gradients are needed. -/
def Trainable (arena : Arena) (node : NodeId) : Prop :=
  arena.operation? node = some .leaf ∧ arena.needsGradient? node = some true

/-- Gradients are needed on a node just if it depends on a leaf on which they are. -/
theorem needsGradient_iff
    (sound : arena.Sound)
    (inherits : arena.Inherits)
    {flag : Bool}
    (flagged : arena.needsGradient? node = some flag) :
    flag = true ↔ ∃ leaf, arena.DependsOn node leaf ∧ arena.Trainable leaf := by
  induction node using sound.ordered.induction generalizing flag with
  | step node below =>
    have present : ∀ other, other.index < arena.size →
        ∃ flag, arena.needsGradient? other = some flag := by
      intro other inside
      obtain ⟨found, there⟩ := Option.isSome_iff_exists.1 ((node?_isSome_iff other).2 inside)
      exact ⟨found.needsGradient, by rw [needsGradient?, there, Option.map_some]⟩
    obtain ⟨found, there, rfl⟩ := Option.map_eq_some_iff.1 flagged
    have computes : arena.operation? node = some found.operation := by
      rw [operation?, there, Option.map_some]
    have operands : arena.operands node = found.operation.operands := by
      rw [Arena.operands, computes]
    by_cases isLeaf : found.operation = .leaf
    · rw [isLeaf] at computes operands
      constructor
      · intro needed
        exact ⟨node, .refl, computes, needed ▸ flagged⟩
      · rintro ⟨leaf, depends, -, needed⟩
        rcases Relation.ReflTransGen.cases_head depends with rfl | ⟨operand, member, -⟩
        · exact Option.some.inj (flagged.symm.trans needed)
        · rw [operands] at member
          cases member
    · rw [inherits node _ _ computes isLeaf flagged]
      constructor
      · rintro ⟨operand, member, needed⟩
        rw [← operands] at member
        obtain ⟨leaf, depends, trainable⟩ := (below operand member needed).1 rfl
        exact ⟨leaf, .head member depends, trainable⟩
      · rintro ⟨leaf, depends, trainable⟩
        rcases Relation.ReflTransGen.cases_head depends with rfl | ⟨operand, member, rest⟩
        · exact absurd (Option.some.inj (computes.symm.trans trainable.1)) isLeaf
        · have inside : operand.index < arena.size :=
            Nat.lt_trans (sound.ordered node operand member) (lt_size_of_mem_operands member)
          obtain ⟨flag, flaggedBelow⟩ := present operand inside
          have needed := (below operand member flaggedBelow).2 ⟨leaf, rest, trainable⟩
          rw [operands] at member
          exact ⟨operand, member, needed ▸ flaggedBelow⟩

/-! ## Leaves that are trained -/

theorem Akin.trainable (akin : arena.Akin other) : other.Trainable = arena.Trainable := by
  funext node
  rw [Trainable, Trainable, akin.alike.operation?, akin.needsGradient?]

theorem trainable_push
    (arena : Arena)
    (operation : Operation)
    (shape : Shape)
    (needsGradient : Bool)
    (node : NodeId) :
    (arena.push operation shape needsGradient).2.Trainable node ↔
      arena.Trainable node ∨
        node = ⟨arena.size⟩ ∧ operation = .leaf ∧ needsGradient = true := by
  unfold Trainable
  rw [operation?_push, needsGradient?_push]
  have last : node = ⟨arena.size⟩ ↔ node.index = arena.size := by
    cases node
    simp
  by_cases new : node.index = arena.size
  · have absent : arena.operation? node = none := by
      rw [operation?, node?_of_size_le (Nat.le_of_eq new.symm)]
      rfl
    simp [last, new, absent]
  · simp [last, new]

/-- Operations that make no leaf leave the trainable leaves as they are. -/
theorem durable_trainable (earlier : Arena) :
    Durable fun arena => arena.Sound ∧ ∀ node, arena.Trainable node ↔ earlier.Trainable node where
  sound _ held := held.1
  akin arena other akin held := by
    refine ⟨akin.alike.sound held.1, ?_⟩
    rw [akin.trainable]
    exact held.2
  push arena opcode operands operation shape needsGradient held applies := by
    refine ⟨applies.sound held.1, fun node => ?_⟩
    rw [trainable_push, held.2]
    simp [applies.computed]

end Arena

namespace Graph

variable
    {α : Type}
    [Element α]
    {graph : Graph α}

omit [Element α] in
/-- A new leaf, whose flags and storage are set. -/
theorem trainable_push_leaf
    (arena : Arena)
    (shape : Shape)
    (needsGradient : Bool)
    {change : Node → Node}
    (nature : ∀ found, (change found).nature = found.nature)
    (node : NodeId) :
    ((arena.push .leaf shape needsGradient).2.modify ⟨arena.size⟩ change).Trainable node ↔
      arena.Trainable node ∨ node = ⟨arena.size⟩ ∧ needsGradient = true := by
  rw [(Arena.akin_modify _ _ change nature).trainable, Arena.trainable_push]
  simp

omit [Element α] in
/-- A new constant, whose flags and storage are set. -/
theorem trainable_push_constant
    {arena earlier : Arena}
    (held : arena.Sound ∧ ∀ node, arena.Trainable node ↔ earlier.Trainable node)
    {change : Node → Node}
    (nature : ∀ found, (change found).nature = found.nature) :
    ((arena.push .leaf .scalar false).2.modify ⟨arena.size⟩ change).Sound ∧
      ∀ node, ((arena.push .leaf .scalar false).2.modify ⟨arena.size⟩ change).Trainable node ↔
        earlier.Trainable node := by
  have akin := Arena.akin_modify (arena.push .leaf .scalar false).2 ⟨arena.size⟩ change nature
  refine ⟨akin.alike.sound ?_, fun node => ?_⟩
  · exact .push _ _ held.1 nofun nofun ⟨_, Shape.size_scalar⟩ nofun
  · rw [trainable_push_leaf arena .scalar false nature, held.2]
    simp

omit [Element α] in
/-- One leaf more is trainable if that is asked for. -/
theorem ends_leaf_trainable
    (graph : Graph α)
    (shape : Shape)
    (values : Array α)
    (trainable : Bool) :
    Ends (Graph.leaf shape values trainable) graph
      (fun leaf after => ∀ node, after.arena.Trainable node ↔
        graph.arena.Trainable node ∨ node = leaf ∧ trainable = true)
      (fun _ after => after.arena = graph.arena) := by
  unfold Graph.leaf
  rw [ends_bind_iff]
  refine ends_check (fun size _ => ?_) fun _ => rfl
  dsimp only
  split
  · rfl
  · rw [ends_bind_iff, Graph.push, ends_modifyGet_iff, ends_bind_iff, ends_onStore_iff,
      Store.allocateFrom, ends_modifyGet_iff]
    refine ends_gradientIfNeeded trainable fun gradient store _ => ?_
    rw [ends_bind_iff, ends_modifyNode_iff, ends_pure_iff]
    exact trainable_push_leaf graph.arena shape trainable fun _ => rfl

/-- A constant is not trainable. -/
theorem scalar_trainable
    (earlier : Arena)
    (value : α) :
    Preserves
      (OnArena fun arena => arena.Sound ∧ ∀ node, arena.Trainable node ↔ earlier.Trainable node)
      (Graph.scalar value) := by
  intro graph held
  unfold Graph.scalar
  dsimp only
  rw [ends_bind_iff, ends_get_iff]
  split
  · exact held
  · rw [ends_bind_iff, Graph.push, ends_modifyGet_iff, ends_bind_iff, ends_onStore_iff,
      Store.allocateFrom, ends_modifyGet_iff, ends_bind_iff, ends_modifyNode_iff, ends_bind_iff,
      ends_modify_iff, ends_pure_iff]
    exact trainable_push_constant held fun _ => rfl

/-! ## Kernels that stay inside their inputs -/

/--
The kernels of a script, on what its leaves and the gradients read as, read nothing beyond its
end: at no coordinate of the output, and at no place of a pass along an axis.
-/
structure RunsInside
    (graph : Graph α)
    (shape : Shape)
    (size : Nat)
    (script : Script) : Prop where
  forward : ∃ rows, script.kernel.rows (script.data.map graph.reading).toArray size = .ok rows
  /-- The first pass of a reduction, in which only a size can be too large. -/
  reduce : ∀ axis layout fanIn length (combine : α → α → α),
    AxisLayout.ofShape shape axis = .ok layout → 2 ≤ fanIn →
    layout.sizeAlong (Size.runs layout.length fanIn) = .ok length →
    (layout.passKernel fanIn combine (zeros α script.cacheSize) fun index inputs workspace =>
      Script.evalAt script.records inputs index workspace).rows
        (script.data.map graph.reading).toArray length ≠ .error .outOfBounds
  /-- The sweep of a backward pass, whose direct gradients are inputs too. -/
  backward : ∀ plan sized spare assignments totals,
    Plan.ofScript script = .ok plan →
    sized = (script.targets graph.arena).map
      (fun target => (target, graph.store.lengthOf target.buffer)) →
    spare.length = (sized.filter (·.2 ≠ size)).length →
    assignments = Gradient.assign size sized spare →
    List.Forall₂ (fun buffer values => graph.store.reading? buffer = some values)
      (Gradient.direct assignments) totals →
    ∃ rows, (Gradient.kernel plan (Gradient.columns plan.dataLength assignments)).rows
      (script.data.map graph.reading ++ totals).toArray size = .ok rows

/-- The data of a script have content buffers, which read as the leaves do. -/
theorem exists_dataBuffers
    {pins : BufferId → Nat}
    {node : NodeId}
    {script : Script}
    (valid : graph.Valid pins)
    (properly : Script.Compiled graph.arena node script) :
    ∃ data,
      List.Forall₂ (fun node buffer => graph.arena.bufferOf? node .content = some buffer)
        script.data data ∧
      List.Forall₂ (fun buffer values => graph.store.reading? buffer = some values)
        data (script.data.map graph.reading) := by
  have owned : ∀ leaf ∈ script.data, ∃ buffer,
      graph.arena.bufferOf? leaf .content = some buffer := by
    intro leaf member
    obtain ⟨-, isLeaf⟩ := Arena.mem_leavesOf_iff.1 ((mem_data_iff valid.arena properly).1 member)
    exact valid.current leaf (valid.leaves leaf isLeaf)
  generalize script.data = leaves at owned
  induction leaves with
  | nil => exact ⟨[], .nil, .nil⟩
  | cons leaf leaves step =>
    obtain ⟨buffer, own⟩ := owned leaf List.mem_cons_self
    obtain ⟨data, owns, reads⟩ := step fun other member =>
      owned other (List.mem_cons_of_mem _ member)
    obtain ⟨shape, size, shaped, sized⟩ := valid.exists_size (index_lt_of_bufferOf? own)
    obtain ⟨values, read, -⟩ := valid.exists_reading own shaped sized
    refine ⟨buffer :: data, .cons own owns, .cons ?_ reads⟩
    rw [reading_of_bufferOf? own read, read]

section

variable
    {pins : BufferId → Nat}
    {node : NodeId}
    {shape : Shape}
    {size : Nat}
    {script : Script}
    (valid : graph.Valid pins)
    (properly : Script.Compiled graph.arena node script)
    (shaped : graph.arena.shape? node = some shape)
    (sized : shape.size = .ok size)

include valid properly shaped sized

/-- A script has a value at every place of a layout of its output. -/
theorem gives_evalAt
    {axis : Nat}
    {layout : AxisLayout}
    (laidOut : AxisLayout.ofShape shape axis = .ok layout) :
    Source.Gives
      (fun index inputs workspace => Script.evalAt script.records inputs index workspace)
      (script.data.map graph.reading).toArray (·.size = script.cacheSize) layout.count := by
  intro index inside workspace enough
  rw [AxisLayout.count_ofShape laidOut sized] at inside
  obtain ⟨after, same, computed⟩ :=
    evalAt_reading valid properly shaped sized inside (Nat.le_of_eq enough.symm)
  exact ⟨_, after, computed, same.trans enough⟩

/-- The kernels of a script that is compiled stay inside their inputs. -/
theorem runsInside_of_compiled : graph.RunsInside shape size script := by
  obtain ⟨data, owned, viewed⟩ := exists_dataBuffers valid properly
  refine ⟨rows_isOk valid properly shaped sized owned viewed, ?_, ?_⟩
  · intro axis layout fanIn length combine laidOut long counted
    rw [AxisLayout.sizeAlong_eq_ok counted]
    exact AxisLayout.passKernel_rows_ne_outOfBounds combine
      (gives_evalAt valid properly shaped sized laidOut) (Nat.lt_of_lt_of_le Nat.two_pos long)
      Array.size_replicate
  · rintro plan _ spare _ totals planned rfl count rfl reads
    have validates := properly.validate valid.arena.proper
    obtain ⟨other, again, ordered, -, dataLength⟩ := Plan.ofScript_eq_ok validates
    rw [planned] at again
    cases again
    obtain ⟨-, -, each⟩ := Gradient.assign_eq count
    have lengths : data.length = plan.dataLength := owned.length_eq.symm.trans dataLength.symm
    have among : ∀ assignment ∈ Gradient.assign size
        ((script.targets graph.arena).map fun target =>
          (target, graph.store.lengthOf target.buffer)) spare,
        assignment.1 ∈ script.targets graph.arena ∧
          (assignment.2 = none → graph.store.lengthOf assignment.1.buffer = size) := by
      intro assignment member
      obtain ⟨length, inside, fits⟩ := each assignment member
      obtain ⟨target, found, same⟩ := List.mem_map.1 inside
      cases same
      refine ⟨found, fun unspared => ?_⟩
      rw [unspared] at fits
      exact fits
    refine Gradient.kernel_rows_isOk valid.store ordered lengths
      (fun assignment member => before_of_mem_targets validates planned (among assignment member).1)
      (fun target member => (among _ member).2 rfl) (List.rel_append viewed reads) ?_
    intro coordinate inside
    have first : (script.data.map graph.reading ++ totals).take data.length =
        script.data.map graph.reading := by
      rw [← owned.length_eq, ← List.length_map graph.reading, List.take_left]
    rw [first]
    exact readable_of_viewed valid properly shaped sized owned viewed dataLength inside

end

/-! ## The nodes of a graph -/

/-- What the parts of a node are to the graph that it is a node of. -/
structure Represents
    (graph : Graph α)
    (trained : NodeId → Prop)
    (node : NodeId)
    (found : Node) : Prop where
  ordered : ∀ operand ∈ found.operation.operands, operand.index < node.index
  increasing : found.users.Pairwise fun user later => user.index < later.index
  users : ∀ user, user ∈ found.users ↔
    ∃ other, graph.arena.node? user = some other ∧ node ∈ other.operation.operands
  needsGradient : found.needsGradient = true ↔
    ∃ leaf, graph.arena.DependsOn node leaf ∧ trained leaf
  stored : found.operation ≠ .leaf → (found.storage.isSome = true ↔ found.isOutput = true)
  gradient : ∀ storage, found.storage = some storage →
    storage.gradient.isSome = found.needsGradient
  lengths : ∀ part buffer size, graph.arena.bufferOf? node part = some buffer →
    found.shape.size = .ok size →
    (graph.store.buffers.get? buffer).map (·.length) = some size
  broadcast : ∀ other below, graph.arena.DependsOn node other →
    graph.arena.node? other = some below →
    below.shape = found.shape ∨ below.shape.size = .ok 1

omit [Element α] in
theorem represents_of_valid
    {pins : BufferId → Nat}
    {trained : NodeId → Prop}
    {node : NodeId}
    {found : Node}
    (valid : graph.Valid pins)
    (tracked : graph.arena.Tracked)
    (increasing : graph.arena.Increasing)
    (inherits : graph.arena.Inherits)
    (trains : ∀ leaf, graph.arena.Trainable leaf ↔ trained leaf)
    (present : graph.arena.node? node = some found) :
    graph.Represents trained node found := by
  have operands : ∀ {user other}, graph.arena.node? user = some other →
      graph.arena.operands user = other.operation.operands := by
    intro user other there
    rw [Arena.operands, Arena.operation?, there, Option.map_some]
  have users : graph.arena.users node = found.users := by rw [Arena.users, present]
  have shaped : ∀ {other below}, graph.arena.node? other = some below →
      graph.arena.shape? other = some below.shape := by
    intro other below there
    rw [Arena.shape?, there, Option.map_some]
  have flagged : graph.arena.needsGradient? node = some found.needsGradient := by
    rw [Arena.needsGradient?, present, Option.map_some]
  constructor
  case ordered =>
    intro operand member
    rw [← operands present] at member
    exact valid.arena.ordered node operand member
  case increasing => exact users ▸ increasing node
  case users =>
    intro user
    rw [← users, valid.arena.users]
    constructor
    · intro member
      obtain ⟨other, there⟩ := Option.isSome_iff_exists.1
        ((Arena.node?_isSome_iff user).2 (Arena.lt_size_of_mem_operands member))
      exact ⟨other, there, operands there ▸ member⟩
    · rintro ⟨other, there, member⟩
      exact operands there ▸ member
  case needsGradient =>
    rw [Arena.needsGradient_iff valid.arena inherits flagged]
    simp only [trains]
  case stored =>
    intro computed
    obtain ⟨size, sized⟩ := valid.arena.sized node found.shape (shaped present)
    rw [(tracked node found present).stored size sized, or_iff_right computed]
  case gradient => exact (tracked node found present).needed
  case lengths =>
    intro part buffer size owned sized
    have claimed := valid.claims node part buffer _ _ owned (shaped present) sized
    obtain ⟨held, there, same⟩ := Option.map_eq_some_iff.1 claimed
    rw [there, Option.map_some]
    exact congrArg (fun claim => some claim.length) same
  case broadcast =>
    intro other below depends there
    exact valid.arena.shape_of_dependsOn depends (shaped present) (shaped there)

namespace Session

variable
    {session : Session α}
    {command : Command α}
    {commands : List (Command α)}
    {leaf : NodeId}

/-- A leaf that was asked for to be trained, since the graph was cleared last. -/
def Trained (session : Session α) (commands : List (Command α)) (leaf : NodeId) : Prop :=
  ∃ before shape values after,
    commands = before ++ .leaf shape values true :: after ∧
    (∀ command ∈ after, command ≠ .clear) ∧
    ((session.run before).step (.leaf shape values true)).1 = .ok (.node leaf)

theorem trained_concat :
    session.Trained (commands ++ [command]) leaf ↔
      (command ≠ .clear ∧ session.Trained commands leaf) ∨
        ∃ shape values, command = .leaf shape values true ∧
          ((session.run commands).step command).1 = .ok (.node leaf) := by
  constructor
  · rintro ⟨before, shape, values, after, split, kept, answered⟩
    rcases List.eq_nil_or_concat after with rfl | ⟨between, last, rfl⟩
    · obtain ⟨rfl, single⟩ := List.append_inj' split rfl
      cases single
      exact .inr ⟨shape, values, rfl, answered⟩
    · rw [List.concat_eq_append, ← List.cons_append, ← List.append_assoc] at split
      obtain ⟨rfl, single⟩ := List.append_inj' split rfl
      cases single
      refine .inl ⟨kept _ (by simp), before, shape, values, between, rfl, fun other member => ?_,
        answered⟩
      exact kept other (by simp [member])
  · rintro (⟨kept, before, shape, values, after, rfl, keptAfter, answered⟩ |
      ⟨shape, values, rfl, answered⟩)
    · refine ⟨before, shape, values, after ++ [command], by simp, fun other member => ?_, answered⟩
      rcases List.mem_append.1 member with among | last
      · exact keptAfter other among
      · exact List.mem_singleton.1 last ▸ kept
    · exact ⟨commands, shape, values, [], rfl, nofun, answered⟩

/-- A request makes a leaf trainable just if that is what it asks for. -/
theorem trainable_step
    (sound : session.graph.arena.Sound)
    (command : Command α)
    (leaf : NodeId) :
    (session.step command).2.graph.arena.Trainable leaf ↔
      (command ≠ .clear ∧ session.graph.arena.Trainable leaf) ∨
        ∃ shape values, command = .leaf shape values true ∧
          (session.step command).1 = .ok (.node leaf) := by
  by_cases cleared : command = .clear
  · subst cleared
    constructor
    · rintro ⟨found, -⟩
      cases found
    · rintro (⟨never, -⟩ | ⟨shape, values, other, -⟩)
      · exact absurd rfl never
      · cases other
  by_cases grows : ∃ shape values trainable, command = .leaf shape values trainable
  · obtain ⟨shape, values, trainable, rfl⟩ := grows
    have ends : Ends (perform (.leaf shape values trainable)) session
        (fun answer after => ∃ made, answer = .node made ∧
          ∀ node, after.graph.arena.Trainable node ↔
          session.graph.arena.Trainable node ∨ node = made ∧ trainable = true)
        (fun _ after => after.graph.arena = session.graph.arena) := by
      rw [perform, ends_map_iff, ends_onGraph_iff]
      exact (ends_leaf_trainable session.graph shape values trainable).mono
        (fun made _ kept => ⟨made, rfl, kept⟩) fun _ _ same => same
    cases outcome : (session.step (.leaf shape values trainable)).1 with
    | ok answer =>
      obtain ⟨made, rfl, kept⟩ := step_of_ok ends outcome
      rw [kept leaf]
      constructor
      · rintro (old | ⟨rfl, rfl⟩)
        · exact .inl ⟨cleared, old⟩
        · exact .inr ⟨shape, values, rfl, rfl⟩
      · rintro (⟨-, old⟩ | ⟨_, _, same, answered⟩)
        · exact .inl old
        · cases same
          cases answered
          exact .inr ⟨rfl, rfl⟩
    | error reason =>
      rw [step_of_error ends outcome]
      simp
  · have keeps := arena_perform (Durable.sustained (Arena.durable_trainable session.graph.arena))
      cleared (fun shape values trainable same => absurd ⟨shape, values, trainable, same⟩ grows)
      fun value _ => scalar_trainable session.graph.arena value
    have kept := (step_of_ends (keeps session ⟨sound, fun _ => Iff.rfl⟩)).2 leaf
    rw [kept]
    constructor
    · exact fun old => .inl ⟨cleared, old⟩
    · rintro (⟨-, old⟩ | ⟨shape, values, same, -⟩)
      · exact old
      · exact absurd ⟨shape, values, true, same⟩ grows

variable
    {capacity : Nat}
    {device : DeviceId}
    {unsupported : List OpCode}
    {faults : Method → Nat → Option DeviceError}
    {config : Config}

/-- Exactly the leaves that were asked for to be trained are trainable. -/
theorem trainable_iff_trained (commands : List (Command α)) (leaf : NodeId) :
    ((start capacity device unsupported faults config).run commands).graph.arena.Trainable leaf ↔
      (start capacity device unsupported faults config).Trained commands leaf := by
  induction commands using List.reverseRecOn generalizing leaf with
  | nil =>
    constructor
    · rintro ⟨found, -⟩
      cases found
    · rintro ⟨before, _, _, _, absurd, -⟩
      exact (List.append_ne_nil_of_right_ne_nil before (List.cons_ne_nil _ _) absurd.symm).elim
  | append_singleton commands command step =>
    have sound := (run_valid capacity device unsupported faults config commands).arena
    rw [run_append, trained_concat, ← step]
    exact trainable_step sound command leaf

theorem increasing_of_run
    (reached : (start capacity device unsupported faults config).run commands = session) :
    session.graph.arena.Increasing := by
  have empty : Arena.empty.Sound ∧ Arena.empty.Increasing :=
    ⟨Arena.sound_empty, fun _ => .nil⟩
  rw [← reached]
  exact (lasting_run Arena.lasting_increasing empty empty commands).2

theorem inherits_of_run
    (reached : (start capacity device unsupported faults config).run commands = session) :
    session.graph.arena.Inherits := by
  have empty : Arena.empty.Sound ∧ Arena.empty.Inherits :=
    ⟨Arena.sound_empty, fun _ _ _ found => by cases found⟩
  rw [← reached]
  exact (lasting_run Arena.lasting_inherits empty empty commands).2

/--
In every graph that can be reached, the parts of each node fit together, the node has a size
and a script, and the kernels that the script is run with stay inside their inputs, as do those
of the later passes of a reduction.
-/
theorem nodes_represented
    (reached : (start capacity device unsupported faults config).run commands = session)
    {node : NodeId}
    {found : Node}
    (present : session.graph.arena.node? node = some found) :
    session.graph.Represents ((start capacity device unsupported faults config).Trained commands)
        node found ∧
      (∃ size script, found.shape.size = .ok size ∧
        Script.compile session.graph.arena node = .ok script ∧
        session.graph.RunsInside found.shape size script) ∧
      ∀ (layout : AxisLayout) fanIn length (combine : α → α → α) (values : Array α), 2 ≤ fanIn →
        layout.sizeAlong layout.length = .ok values.size →
        layout.sizeAlong (Size.runs layout.length fanIn) = .ok length →
        (layout.passKernel fanIn combine () firstInput).rows #[values] length ≠
          .error .outOfBounds := by
  have trains : ∀ leaf, session.graph.arena.Trainable leaf ↔
      (start capacity device unsupported faults config).Trained commands leaf := by
    intro leaf
    rw [← reached]
    exact trainable_iff_trained commands leaf
  have increasing := increasing_of_run reached
  have inherits := inherits_of_run reached
  have valid := run_valid capacity device unsupported faults config commands
  have tracked := run_tracked capacity device unsupported faults config commands
  unfold Valid at valid
  rw [reached] at valid tracked
  have shaped : session.graph.arena.shape? node = some found.shape := by
    rw [Arena.shape?, present, Option.map_some]
  have inside : node.index < session.graph.arena.size := by
    rw [← Arena.node?_isSome_iff, present]
    rfl
  obtain ⟨size, sized⟩ := valid.arena.sized node found.shape shaped
  obtain ⟨script, compiles, properly⟩ :=
    Script.compile_eq_ok valid.arena.ordered valid.arena.proper inside
  refine ⟨represents_of_valid valid tracked increasing inherits trains present,
    ⟨size, script, sized, compiles, runsInside_of_compiled valid properly shaped sized⟩, ?_⟩
  intro layout fanIn length combine values long whole counted
  have gives : Source.Gives firstInput #[values] (fun _ => True) layout.count := by
    rw [AxisLayout.count, ← AxisLayout.sizeAlong_eq_ok whole]
    exact gives_firstInput values
  rw [AxisLayout.sizeAlong_eq_ok counted]
  exact AxisLayout.passKernel_rows_ne_outOfBounds combine gives
    (Nat.lt_of_lt_of_le Nat.two_pos long) trivial

/-- A trained leaf of three elements times a constant needs a gradient, and its kernel runs. -/
theorem nodes_represented_crowded :
    ∃ found, (onIntegers crowded).graph.arena.node? ⟨2⟩ = some found ∧
      found.needsGradient = true ∧
      ∃ (size : Nat) (script : Script) (rows : Array (Array Int)), found.shape.size = .ok size ∧
        Script.compile (onIntegers crowded).graph.arena ⟨2⟩ = .ok script ∧
        script.kernel.rows (script.data.map (onIntegers crowded).graph.reading).toArray size =
          .ok rows := by
  have present : ((onIntegers crowded).graph.arena.node? ⟨2⟩).isSome = true := by decide +kernel
  obtain ⟨found, present⟩ := Option.isSome_iff_exists.1 present
  obtain ⟨represents, ⟨size, script, sized, compiles, inside⟩, -⟩ :=
    nodes_represented (run_eq_onIntegers crowded) present
  have operand : (⟨0⟩ : NodeId) ∈ (onIntegers crowded).graph.arena.operands ⟨2⟩ := by
    decide +kernel
  obtain ⟨rows, runs⟩ := inside.forward
  refine ⟨found, present, represents.needsGradient.2 ⟨⟨0⟩, .single operand, ?_⟩,
    size, script, rows, sized, compiles, runs⟩
  exact ⟨[], ⟨[3]⟩, #[3, 5, 6], _, rfl, by simp, rfl⟩

end Session

end Graph

end Elementwise
