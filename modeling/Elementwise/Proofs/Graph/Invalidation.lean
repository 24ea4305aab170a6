import Elementwise.Proofs.Graph.Arena

/-!
# What an invalidation reaches

The search from the users of a node marks exactly the nodes that depend on it,
itself excepted, and these are the nodes that are not up to date any more
afterwards.  Nothing else changes.
-/

namespace Elementwise.Arena

variable {arena : Arena}

/-- Everything downstream of what is marked is marked too or still to be looked at. -/
def Closed (arena : Arena) (pending : List NodeId) (marks : Array Bool) : Prop :=
  ∀ node user : NodeId, marks[node.index]? = some true → user ∈ arena.users node →
    user.index < marks.size → marks[user.index]? = some true ∨ user ∈ pending

theorem size_reach (pending : List NodeId) (marks : Array Bool) :
    (arena.reach pending marks).size = marks.size := by
  fun_induction reach arena pending marks with
  | case1 marks => rfl
  | case2 node pending marks unset step => rw [step, Array.size_setIfInBounds]
  | case3 node pending marks set step => exact step

/-- What is marked stays marked. -/
theorem reach_of_marked
    {pending : List NodeId}
    {marks : Array Bool}
    {index : Nat}
    (marked : marks[index]? = some true) :
    (arena.reach pending marks)[index]? = some true := by
  fun_induction reach arena pending marks with
  | case1 marks => exact marked
  | case2 node pending marks unset step =>
    refine step ?_
    by_cases same : node.index = index
    · rw [← same, unset] at marked
      cases marked
    · rwa [Array.getElem?_setIfInBounds_ne same]
  | case3 node pending marks set step => exact step marked

/-- What was to be looked at is marked in the end, and so is everything downstream. -/
theorem closed_reach
    {pending : List NodeId}
    {marks : Array Bool}
    (closed : arena.Closed pending marks) :
    arena.Closed [] (arena.reach pending marks) ∧
      ∀ node ∈ pending, node.index < marks.size →
        (arena.reach pending marks)[node.index]? = some true := by
  fun_induction reach arena pending marks with
  | case1 marks => exact ⟨closed, fun _ absent => absurd absent List.not_mem_nil⟩
  | case2 node pending marks unset step =>
    have inner : arena.Closed (arena.users node ++ pending)
        (marks.setIfInBounds node.index true) := by
      intro other user marked isUser inside
      rw [Array.size_setIfInBounds] at inside
      by_cases itself : node.index = other.index
      · have same : node = other := by
          cases node
          cases other
          exact congrArg NodeId.mk itself
        exact .inr (List.mem_append_left _ (same ▸ isUser))
      · rw [Array.getElem?_setIfInBounds_ne itself] at marked
        by_cases new : node.index = user.index
        · left
          rw [← new, Array.getElem?_setIfInBounds_self_of_lt (new ▸ inside)]
        · rw [Array.getElem?_setIfInBounds_ne new]
          rcases closed other user marked isUser inside with old | member
          · exact .inl old
          · rcases List.mem_cons.1 member with rfl | member
            · exact absurd rfl new
            · exact .inr (List.mem_append_right _ member)
    obtain ⟨rest, reached⟩ := step inner
    refine ⟨rest, fun other member inside => ?_⟩
    rcases List.mem_cons.1 member with rfl | member
    · exact reach_of_marked (Array.getElem?_setIfInBounds_self_of_lt inside)
    · exact reached other (List.mem_append_right _ member)
        (by rwa [Array.size_setIfInBounds])
  | case3 node pending marks set step =>
    have marked : ∀ inside : node.index < marks.size, marks[node.index]? = some true := by
      intro inside
      rw [Array.getElem?_eq_getElem inside] at set ⊢
      cases value : marks[node.index] with
      | true => rfl
      | false => exact absurd (congrArg some value) set
    have inner : arena.Closed pending marks := by
      intro other user old isUser inside
      rcases closed other user old isUser inside with found | member
      · exact .inl found
      · rcases List.mem_cons.1 member with rfl | member
        · exact .inl (marked inside)
        · exact .inr member
    obtain ⟨rest, reached⟩ := step inner
    refine ⟨rest, fun other member inside => ?_⟩
    rcases List.mem_cons.1 member with rfl | member
    · exact reach_of_marked (marked inside)
    · exact reached other member inside

/-- Nothing is marked without a reason. -/
theorem dependsOn_of_reach
    (sound : arena.Sound)
    {pending : List NodeId}
    {marks : Array Bool}
    {other : NodeId}
    (marked : (arena.reach pending marks)[other.index]? = some true) :
    marks[other.index]? = some true ∨ ∃ node ∈ pending, arena.DependsOn other node := by
  fun_induction reach arena pending marks with
  | case1 marks => exact .inl marked
  | case2 node pending marks unset step =>
    rcases step marked with old | ⟨found, member, depends⟩
    · by_cases same : node.index = other.index
      · refine .inr ⟨node, List.mem_cons_self, ?_⟩
        have equal : other = node := by
          cases node
          cases other
          exact congrArg NodeId.mk same.symm
        exact equal ▸ .refl
      · rw [Array.getElem?_setIfInBounds_ne same] at old
        exact .inl old
    · refine .inr ?_
      rcases List.mem_append.1 member with isUser | member
      · exact ⟨node, List.mem_cons_self, depends.tail ((sound.users node found).1 isUser)⟩
      · exact ⟨found, List.mem_cons_of_mem _ member, depends⟩
  | case3 node pending marks set step =>
    rcases step marked with old | ⟨found, member, depends⟩
    · exact .inl old
    · exact .inr ⟨found, List.mem_cons_of_mem _ member, depends⟩

/-- The nodes that are not up to date any more when a node changes. -/
def Downstream (arena : Arena) (source node : NodeId) : Prop :=
  arena.DependsOn node source ∧ node ≠ source

/-- The search from the users of a node marks what is downstream of it. -/
theorem reach_users_iff
    (sound : arena.Sound)
    (source node : NodeId) :
    (arena.reach (arena.users source) arena.unmarked)[node.index]? = some true ↔
      arena.Downstream source node := by
  have unmarked : ∀ index : Nat, arena.unmarked[index]? ≠ some true := by
    intro index
    simp [Arena.unmarked, Array.getElem?_replicate]
  constructor
  · intro marked
    rcases dependsOn_of_reach sound marked with old | ⟨user, isUser, depends⟩
    · exact absurd old (unmarked _)
    · have operand := (sound.users source user).1 isUser
      refine ⟨depends.tail operand, ?_⟩
      rintro rfl
      have before := sound.ordered user node operand
      have after := DependsOn.index_le sound.ordered depends
      omega
  · rintro ⟨depends, different⟩
    have closed : arena.Closed (arena.users source) arena.unmarked :=
      fun other _ marked => absurd marked (unmarked _)
    obtain ⟨rest, reached⟩ := closed_reach closed
    have size : arena.unmarked.size = arena.size := Array.size_replicate
    induction depends using Relation.ReflTransGen.head_induction_on with
    | refl => exact absurd rfl different
    | @head user operand isOperand _ step =>
      have inside : user.index < arena.unmarked.size := by
        rw [size]
        exact lt_size_of_mem_operands isOperand
      have isUser := (sound.users operand user).2 isOperand
      by_cases same : operand = source
      · exact reached user (same ▸ isUser) inside
      · refine (rest operand user (step same) isUser ?_).resolve_right List.not_mem_nil
        rwa [size_reach]

theorem node?_invalidate (source node : NodeId) :
    (arena.invalidate source).node? node = (arena.node? node).map fun found =>
      if (arena.reach (arena.users source) arena.unmarked)[node.index]? = some true then
        { found with isCurrent := false }
      else
        found := by
  rw [invalidate, node?, Array.getElem?_mapIdx]
  rfl

theorem alike_invalidate (source : NodeId) : arena.Alike (arena.invalidate source) := by
  intro node
  rw [node?_invalidate, Option.map_map]
  refine Option.map_congr fun found _ => ?_
  rw [Function.comp_apply]
  split
  · rfl
  · rfl

end Elementwise.Arena
