import Elementwise.Script.Schedule
import Mathlib.Data.List.Nodup
import Mathlib.Logic.Relation

/-!
# The order of computation

The search that schedules a node keeps a stack and an array of marks.  This
module shows that it lists exactly the recursive post-order, for any arena in
which operands lie before their users.

The post-order itself is characterised by two facts: it is arranged, which
means that every node occurs once and after its operands, and it holds the
nodes that the output depends on and no others.
-/

namespace Elementwise.Arena

variable {arena : Arena}

/-- Every operand was created before its user. -/
def Ordered (arena : Arena) : Prop :=
  ∀ node, ∀ operand ∈ arena.operands node, operand.index < node.index

/-- What the value of a node is computed from, the node itself included. -/
def DependsOn (arena : Arena) : NodeId → NodeId → Prop :=
  Relation.ReflTransGen fun user operand => operand ∈ arena.operands user

/--
A list of nodes, the latest first, in which every node occurs once and has all
its operands behind it.
-/
inductive Arranged (arena : Arena) : List NodeId → Prop where
  | nil : Arranged arena []
  | cons
      {node : NodeId}
      {done : List NodeId}
      (fresh : node ∉ done)
      (operands : ∀ operand ∈ arena.operands node, operand ∈ done)
      (rest : Arranged arena done) :
      Arranged arena (node :: done)

theorem node?_isSome_iff (node : NodeId) :
    (arena.node? node).isSome ↔ node.index < arena.size := by
  simp [node?, size]

/-- A node that does not exist has no operands. -/
theorem lt_size_of_mem_operands
    {node operand : NodeId}
    (member : operand ∈ arena.operands node) :
    node.index < arena.size := by
  rw [← node?_isSome_iff]
  cases found : arena.node? node with
  | some value => rfl
  | none => simp [operands, operation?, found] at member

/-- What holds of a node as soon as it holds of its operands holds of all nodes. -/
@[elab_as_elim]
theorem Ordered.induction
    (ordered : arena.Ordered)
    {motive : NodeId → Prop}
    (step : ∀ node, (∀ operand ∈ arena.operands node, motive operand) → motive node)
    (node : NodeId) :
    motive node := by
  obtain ⟨index, bound⟩ : ∃ index, node.index = index := ⟨_, rfl⟩
  induction index using Nat.strongRecOn generalizing node with
  | ind index earlier =>
    refine step node fun operand member => ?_
    exact earlier operand.index (bound ▸ ordered node operand member) operand rfl

theorem DependsOn.index_le
    (ordered : arena.Ordered)
    {user node : NodeId}
    (depends : arena.DependsOn user node) :
    node.index ≤ user.index := by
  induction depends with
  | refl => exact Nat.le_refl _
  | tail _ step bound => exact Nat.le_trans (Nat.le_of_lt (ordered _ _ step)) bound

/-! ## The recursive order -/

theorem postOrder_of_mem
    {visited : List NodeId}
    {node : NodeId}
    (member : node ∈ visited) :
    arena.postOrder visited node = visited := by
  rw [postOrder, if_pos member]

/-- A node that was not visited stands in front of its operands' orders. -/
theorem postOrder_of_not_mem
    (ordered : arena.Ordered)
    {visited : List NodeId}
    {node : NodeId}
    (fresh : node ∉ visited) :
    arena.postOrder visited node =
      node :: (arena.operands node).foldl arena.postOrder visited := by
  rw [postOrder, if_neg fresh]
  refine congrArg (node :: ·) (List.foldl_ext _ _ _ fun visited operand member => ?_)
  rw [dif_pos (ordered node operand member)]

/-- A leaf depends on nothing else. -/
theorem postOrder_of_leaf
    {node : NodeId}
    (isLeaf : arena.operation? node = some .leaf) :
    arena.postOrder [] node = [node] := by
  have none : arena.operands node = [] := by
    rw [operands, isLeaf]
    rfl
  rw [postOrder, if_neg List.not_mem_nil, none]
  rfl

/-- Visiting nodes one after the other adds only what visiting each may add. -/
theorem mem_foldl_postOrder
    {nodes : List NodeId}
    (each : ∀ node ∈ nodes, ∀ visited other, other ∈ arena.postOrder visited node →
      other ∈ visited ∨ arena.DependsOn node other)
    {visited : List NodeId}
    {other : NodeId}
    (member : other ∈ nodes.foldl arena.postOrder visited) :
    other ∈ visited ∨ ∃ node ∈ nodes, arena.DependsOn node other := by
  induction nodes generalizing visited with
  | nil => exact .inl member
  | cons node nodes step =>
    rcases step (fun later among => each later (List.mem_cons_of_mem _ among)) member
      with member | ⟨later, among, depends⟩
    · rcases each node List.mem_cons_self visited other member with member | depends
      · exact .inl member
      · exact .inr ⟨node, List.mem_cons_self, depends⟩
    · exact .inr ⟨later, List.mem_cons_of_mem _ among, depends⟩

/-- Only what a node depends on is visited for its sake. -/
theorem mem_postOrder
    (ordered : arena.Ordered)
    (node : NodeId)
    {visited : List NodeId}
    {other : NodeId}
    (member : other ∈ arena.postOrder visited node) :
    other ∈ visited ∨ arena.DependsOn node other := by
  induction node using ordered.induction generalizing visited other with
  | step node operandwise =>
    by_cases old : node ∈ visited
    · rw [postOrder_of_mem old] at member
      exact .inl member
    · rw [postOrder_of_not_mem ordered old, List.mem_cons] at member
      rcases member with rfl | member
      · exact .inr .refl
      · rcases mem_foldl_postOrder
          (fun operand among _ _ => operandwise operand among) member
          with member | ⟨operand, isOperand, depends⟩
        · exact .inl member
        · exact .inr (.head isOperand depends)

/-- Visiting arranged nodes one after the other visits them all. -/
theorem arranged_foldl_postOrder
    {nodes : List NodeId}
    (each : ∀ node ∈ nodes, ∀ visited, arena.Arranged visited →
      arena.Arranged (arena.postOrder visited node) ∧
        visited <:+ arena.postOrder visited node ∧
        node ∈ arena.postOrder visited node)
    {visited : List NodeId}
    (arranged : arena.Arranged visited) :
    arena.Arranged (nodes.foldl arena.postOrder visited) ∧
      visited <:+ nodes.foldl arena.postOrder visited ∧
      ∀ node ∈ nodes, node ∈ nodes.foldl arena.postOrder visited := by
  induction nodes generalizing visited with
  | nil => exact ⟨arranged, List.suffix_refl _, by simp⟩
  | cons node nodes step =>
    obtain ⟨first, kept, present⟩ := each node List.mem_cons_self visited arranged
    obtain ⟨rest, keptToo, others⟩ :=
      step (fun later among => each later (List.mem_cons_of_mem _ among)) first
    refine ⟨rest, kept.trans keptToo, fun other member => ?_⟩
    rcases List.mem_cons.1 member with rfl | member
    · exact keptToo.subset present
    · exact others other member

/-- The post-order stays arranged, ends with what was visited, and has the node. -/
theorem arranged_postOrder
    (ordered : arena.Ordered)
    (node : NodeId)
    {visited : List NodeId}
    (arranged : arena.Arranged visited) :
    arena.Arranged (arena.postOrder visited node) ∧
      visited <:+ arena.postOrder visited node ∧
      node ∈ arena.postOrder visited node := by
  induction node using ordered.induction generalizing visited with
  | step node operandwise =>
    by_cases old : node ∈ visited
    · rw [postOrder_of_mem old]
      exact ⟨arranged, List.suffix_refl _, old⟩
    · obtain ⟨rest, kept, present⟩ := arranged_foldl_postOrder
        (fun operand among _ => operandwise operand among) arranged
      have fresh : node ∉ (arena.operands node).foldl arena.postOrder visited := by
        intro member
        rcases mem_foldl_postOrder (fun operand _ _ _ => mem_postOrder ordered operand) member
          with member | ⟨operand, isOperand, depends⟩
        · exact old member
        · have := depends.index_le ordered
          have := ordered node operand isOperand
          omega
      rw [postOrder_of_not_mem ordered old]
      exact ⟨.cons fresh present rest, kept.trans (List.suffix_cons _ _), List.mem_cons_self⟩

/-- An arranged list holds whatever one of its members depends on. -/
theorem Arranged.mem_of_dependsOn
    {done : List NodeId}
    (arranged : arena.Arranged done)
    {user node : NodeId}
    (member : user ∈ done)
    (depends : arena.DependsOn user node) :
    node ∈ done := by
  induction depends with
  | refl => exact member
  | @tail middle operand _ isOperand found =>
    clear member
    induction arranged with
    | nil => cases found
    | cons fresh operands rest step =>
      rcases List.mem_cons.1 found with rfl | found
      · exact List.mem_cons_of_mem _ (operands operand isOperand)
      · exact List.mem_cons_of_mem _ (step found)

theorem Arranged.nodup
    {done : List NodeId}
    (arranged : arena.Arranged done) :
    done.Nodup := by
  induction arranged with
  | nil => exact List.nodup_nil
  | cons fresh _ _ step => exact List.nodup_cons.2 ⟨fresh, step⟩

theorem Arranged.of_append
    {later done : List NodeId}
    (arranged : arena.Arranged (later ++ done)) :
    arena.Arranged done := by
  induction later with
  | nil => exact arranged
  | cons node later step =>
    cases arranged with
    | cons _ _ rest => exact step rest

/-- Read from its beginning, an arranged order has every node after its operands. -/
theorem Arranged.of_split
    {before after : List NodeId}
    {node : NodeId}
    (arranged : arena.Arranged (before ++ node :: after).reverse) :
    node ∉ before ∧ ∀ operand ∈ arena.operands node, operand ∈ before := by
  rw [List.reverse_append, List.reverse_cons, List.append_assoc] at arranged
  cases arranged.of_append with
  | cons fresh operands _ =>
    exact ⟨by simpa using fresh, fun operand member => by simpa using operands operand member⟩

/-- The order of a node lists exactly what the node depends on. -/
theorem mem_postOrder_nil_iff
    (ordered : arena.Ordered)
    {output node : NodeId} :
    node ∈ arena.postOrder [] output ↔ arena.DependsOn output node := by
  obtain ⟨arranged, -, present⟩ := arranged_postOrder ordered output
    (Arranged.nil : arena.Arranged [])
  constructor
  · intro member
    exact (mem_postOrder ordered output member).resolve_left List.not_mem_nil
  · exact arranged.mem_of_dependsOn present

/-- The order of computation has every node once. -/
theorem nodup_postOrder (ordered : arena.Ordered) (output : NodeId) :
    (arena.postOrder [] output).reverse.Nodup :=
  List.nodup_reverse.2 (arranged_postOrder ordered output .nil).1.nodup

/-- The order of computation has every node after its operands. -/
theorem operands_postOrder
    (ordered : arena.Ordered)
    {output node : NodeId}
    {before after : List NodeId}
    (split : (arena.postOrder [] output).reverse = before ++ node :: after) :
    ∀ operand ∈ arena.operands node, operand ∈ before := by
  have arranged := (arranged_postOrder ordered output (Arranged.nil : arena.Arranged [])).1
  rw [← List.reverse_reverse (arena.postOrder [] output), split] at arranged
  exact arranged.of_split.2

/-- The order of a node ends with the node. -/
theorem getLast?_postOrder (ordered : arena.Ordered) (output : NodeId) :
    (arena.postOrder [] output).reverse.getLast? = some output := by
  rw [postOrder_of_not_mem ordered List.not_mem_nil, List.getLast?_reverse, List.head?_cons]

/-! ## The search -/

/--
A search has entered the nodes that are done, which are arranged, and those
that are waiting for their operands; its marks tell which these are.
-/
structure Searched (arena : Arena) (waiting : List NodeId) (marks : Array Bool)
    (done : List NodeId) : Prop where
  arranged : arena.Arranged done
  size : marks.size = arena.size
  marked : ∀ node : NodeId, node.index < arena.size →
    (marks[node.index]? = some true ↔ node ∈ done ∨ node ∈ waiting)

theorem searched_unmarked : arena.Searched [] arena.unmarked [] where
  arranged := .nil
  size := by simp [unmarked]
  marked node inside := by
    have inside : node.index < arena.size := inside
    simp [unmarked, inside]

/-- Entering a node marks it, and it waits from then on. -/
theorem Searched.enter
    {waiting : List NodeId}
    {marks : Array Bool}
    {done : List NodeId}
    (searched : arena.Searched waiting marks done)
    (node : NodeId)
    (inside : node.index < arena.size) :
    arena.Searched (node :: waiting) (marks.setIfInBounds node.index true) done where
  arranged := searched.arranged
  size := by simp [searched.size]
  marked other existing := by
    by_cases same : node.index = other.index
    · have equal : other = node := by cases other; cases node; simp_all
      simp [equal, searched.size, inside]
    · have different : other ≠ node := fun equal => same (equal ▸ rfl)
      simp [same, different, searched.marked other existing]

/-- A node is done once it is left. -/
theorem Searched.leave
    {node : NodeId}
    {waiting : List NodeId}
    {marks : Array Bool}
    {done : List NodeId}
    (searched : arena.Searched (node :: waiting) marks done)
    (arranged : arena.Arranged (node :: done)) :
    arena.Searched waiting marks (node :: done) where
  arranged := arranged
  size := searched.size
  marked other existing := by
    rw [searched.marked other existing, List.mem_cons, List.mem_cons]
    exact ⟨fun member => by tauto, fun member => by tauto⟩

/-- From one state of the search, entering nodes leads to another. -/
def Enters
    (arena : Arena)
    (waiting : List NodeId)
    (visits : List Visit)
    (done after : List NodeId) : Prop :=
  ∀ stack marks, arena.Searched waiting marks done →
    ∃ marksAfter, arena.Searched waiting marksAfter after ∧
      arena.search (visits ++ stack) marks done = arena.search stack marksAfter after

/-- Nodes that are not entered because they are done already make no difference. -/
theorem enters_all
    {waiting nodes : List NodeId}
    (each : ∀ node ∈ nodes, ∀ done,
      arena.Enters waiting [.enter node] done (arena.postOrder done node))
    (grows : ∀ node ∈ nodes, ∀ done, arena.Arranged done →
      done <:+ arena.postOrder done node)
    (isFresh : NodeId → Bool)
    {done : List NodeId}
    (old : ∀ node ∈ nodes, isFresh node = false → node ∈ done) :
    arena.Enters waiting ((nodes.filter isFresh).map .enter) done
      (nodes.foldl arena.postOrder done) := by
  induction nodes generalizing done with
  | nil => exact fun stack marks searched => ⟨marks, searched, rfl⟩
  | cons node nodes step =>
    intro stack marks searched
    have known : ∀ later ∈ nodes, isFresh later = false →
        later ∈ arena.postOrder done node := by
      intro later among settled
      exact (grows node List.mem_cons_self done searched.arranged).subset
        (old later (List.mem_cons_of_mem _ among) settled)
    have rest := step
      (fun later among => each later (List.mem_cons_of_mem _ among))
      (fun later among => grows later (List.mem_cons_of_mem _ among)) known
    by_cases fresh : isFresh node
    · obtain ⟨middle, searchedMiddle, first⟩ := each node List.mem_cons_self done
        ((nodes.filter isFresh).map .enter ++ stack) marks searched
      obtain ⟨after, searchedAfter, second⟩ := rest stack middle searchedMiddle
      refine ⟨after, searchedAfter, ?_⟩
      rw [List.filter_cons_of_pos fresh]
      exact first.trans second
    · have settled := old node List.mem_cons_self (by simpa using fresh)
      rw [List.filter_cons_of_neg fresh, List.foldl_cons]
      rw [postOrder_of_mem settled] at rest ⊢
      exact rest stack marks searched

/-- Entering a node visits it like the recursive order does. -/
theorem enters_postOrder
    (ordered : arena.Ordered)
    (node : NodeId)
    (inside : node.index < arena.size)
    {waiting : List NodeId}
    (later : ∀ other ∈ waiting, node.index < other.index)
    (done : List NodeId) :
    arena.Enters waiting [.enter node] done (arena.postOrder done node) := by
  induction node using ordered.induction generalizing waiting done with
  | step node operandwise =>
    intro stack marks searched
    have notWaiting : node ∉ waiting := fun member => Nat.lt_irrefl _ (later node member)
    have mark := searched.marked node inside
    rw [List.singleton_append]
    by_cases old : node ∈ done
    · rw [postOrder_of_mem old]
      refine ⟨marks, searched, ?_⟩
      have set : marks[node.index]? = some true := mark.2 (.inl old)
      rw [search, dif_neg (by simp [set]), if_neg (by simp [set])]
    · have unset : marks[node.index]? = some false := by
        have within : node.index < marks.size := searched.size ▸ inside
        have notSet : marks[node.index]? ≠ some true := by
          intro set
          exact (mark.1 set).elim old notWaiting
        rw [Array.getElem?_eq_getElem within] at notSet ⊢
        simpa using notSet
      have entered := searched.enter node inside
      have laterToo : ∀ operand ∈ arena.operands node, ∀ other ∈ node :: waiting,
          operand.index < other.index := by
        intro operand isOperand other member
        have before := ordered node operand isOperand
        rcases List.mem_cons.1 member with rfl | member
        · exact before
        · exact Nat.lt_trans before (later other member)
      have settled : ∀ operand ∈ arena.operands node,
          ((marks.setIfInBounds node.index true)[operand.index]? != some true) = false →
            operand ∈ done := by
        intro operand isOperand set
        have before := ordered node operand isOperand
        have present := (entered.marked operand (by omega)).1 (by simpa using set)
        refine present.resolve_right fun member => ?_
        exact Nat.lt_irrefl _ (laterToo operand isOperand operand member)
      obtain ⟨after, searchedAfter, operands⟩ := enters_all
        (fun operand isOperand done =>
          operandwise operand isOperand
            (by have := ordered node operand isOperand; omega)
            (laterToo operand isOperand) done)
        (fun operand _ done arranged => (arranged_postOrder ordered operand arranged).2.1)
        (fun operand => (marks.setIfInBounds node.index true)[operand.index]? != some true)
        settled (.leave node :: stack) _ entered
      have arranged := (arranged_postOrder ordered node searched.arranged).1
      rw [postOrder_of_not_mem ordered old] at arranged ⊢
      refine ⟨after, searchedAfter.leave arranged, ?_⟩
      rw [search, dif_pos unset]
      exact operands.trans (by rw [search])

/-- The schedule of a node is its recursive post-order. -/
theorem schedule_eq
    (ordered : arena.Ordered)
    {output : NodeId}
    (inside : output.index < arena.size) :
    arena.schedule output = .ok (arena.postOrder [] output).reverse := by
  have nobody : ∀ other ∈ ([] : List NodeId), output.index < other.index := nofun
  obtain ⟨marks, -, found⟩ :=
    enters_postOrder ordered output inside nobody [] [] arena.unmarked searched_unmarked
  refine (found.trans ?_)
  rw [search]

/-! ## Growth -/

/-- Another arena that has the same nodes and possibly more. -/
def Extends (arena larger : Arena) : Prop :=
  ∀ node, node.index < arena.size → larger.operation? node = arena.operation? node

theorem Extends.operands
    {larger : Arena}
    (extension : arena.Extends larger)
    {node : NodeId}
    (inside : node.index < arena.size) :
    larger.operands node = arena.operands node := by
  rw [Arena.operands, Arena.operands, extension node inside]

theorem Extends.lt_size
    {larger : Arena}
    (extension : arena.Extends larger)
    {node : NodeId}
    (inside : node.index < arena.size) :
    node.index < larger.size := by
  rw [← node?_isSome_iff] at inside ⊢
  have same := congrArg Option.isSome (extension node ((node?_isSome_iff node).1 inside))
  simpa [operation?, inside] using same

/-- The order of a node does not change when the arena grows. -/
theorem Extends.postOrder
    {larger : Arena}
    (ordered : arena.Ordered)
    (extension : arena.Extends larger)
    (node : NodeId)
    (inside : node.index < arena.size)
    (visited : List NodeId) :
    larger.postOrder visited node = arena.postOrder visited node := by
  induction node using ordered.induction generalizing visited with
  | step node operandwise =>
    rw [Arena.postOrder, Arena.postOrder, extension.operands inside]
    refine ite_congr rfl (fun _ => rfl) fun _ => congrArg (node :: ·) ?_
    refine List.foldl_ext _ _ _ fun visited operand isOperand => ?_
    have before := ordered node operand isOperand
    rw [dif_pos before, dif_pos before]
    exact operandwise operand isOperand (Nat.lt_trans before inside) visited

end Elementwise.Arena
