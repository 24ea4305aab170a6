import Elementwise.Proofs.Graph.Leaves

/-!
# Constants

Constants are found under their bit pattern, in a table that has other keys as well, and
another table says which pattern a node has.  What the two say of constants is each
other's inverse, every node that is known as a constant is a leaf of a single element
that is not to be trained, and this leaf holds an element with the very pattern.

A request can do three things to the tables: nothing, add a constant under a pattern
that is not known yet, or forget the constant that a leaf was before it was overwritten.
A node that was forgotten is never known again, so that two requests for a constant give
one and the same node just if their patterns agree and the node was overwritten in between
neither by itself nor along with all others.
-/

namespace Elementwise

/-! ## Nodes that can be constants -/

namespace Arena

variable
    {arena : Arena}
    {node : NodeId}

/-- A leaf of a single element that is not to be trained. -/
structure IsConstant (arena : Arena) (node : NodeId) : Prop where
  isLeaf : arena.operation? node = some .leaf
  shape : arena.shape? node = some .scalar
  untrained : arena.needsGradient? node = some false

theorem IsConstant.index_lt (constant : arena.IsConstant node) : node.index < arena.size :=
  Graph.lt_size_of_operation? constant.isLeaf

/-- Nodes stay what they are when others are added. -/
theorem lasting_isConstant (node : NodeId) :
    Lasting fun arena => arena.Sound ∧ arena.IsConstant node where
  sound _ held := held.1
  akin _ _ akin held := by
    refine ⟨akin.alike.sound held.1, ?_, ?_, ?_⟩
    · rw [akin.alike.operation?, held.2.isLeaf]
    · rw [akin.alike.shape?, held.2.shape]
    · rw [akin.needsGradient?, held.2.untrained]
  push arena _ _ _ held _ sound := by
    have old := Nat.ne_of_lt held.2.index_lt
    refine ⟨sound, ?_, ?_, ?_⟩
    · rw [operation?_push, if_neg old, held.2.isLeaf]
    · rw [shape?_push, if_neg old, held.2.shape]
    · rw [needsGradient?_push, if_neg old, held.2.untrained]

theorem Sound.push_constant (sound : arena.Sound) :
    (arena.push .leaf .scalar false).2.Sound :=
  .push _ _ sound nofun nofun ⟨1, Shape.size_scalar⟩ nofun

theorem isConstant_push (arena : Arena) :
    (arena.push .leaf .scalar false).2.IsConstant ⟨arena.size⟩ where
  isLeaf := by rw [operation?_push, if_pos rfl]
  shape := by rw [shape?_push, if_pos rfl]
  untrained := by rw [needsGradient?_push, if_pos rfl]

/-- What can be a constant has no gradient. -/
theorem IsConstant.gradient_eq_none
    (constant : arena.IsConstant node)
    (tracked : arena.Tracked) :
    arena.bufferOf? node .gradient = none := by
  obtain ⟨found, present, untrained⟩ := Option.map_eq_some_iff.1 constant.untrained
  obtain ⟨same, presentSame, shape⟩ := Option.map_eq_some_iff.1 constant.shape
  cases present.symm.trans presentSame
  have sized : found.shape.size = .ok 1 := by
    rw [shape]
    exact Shape.size_scalar
  have absent : found.gradient?.isSome ≠ true := fun some => by
    have needed := ((tracked node found present).gradient sized).1 some
    rw [untrained] at needed
    cases needed.1
  rw [bufferOf?, present, Option.bind_some]
  exact Option.not_isSome_iff_eq_none.1 absent

end Arena

namespace Graph

variable
    {α : Type}
    [Element α]
    {graph before after : Graph α}
    {pins : BufferId → Nat}
    {node leaf : NodeId}
    {value : α}

/-! ## What happens to the tables -/

/-- What is known about constants is the same. -/
structure Recalls (before after : Graph α) : Prop where
  interned : ∀ pattern, after.interned[Key.constant pattern]? =
    before.interned[Key.constant pattern]?
  constants : after.constants = before.constants

omit [Element α] in
theorem Recalls.refl (graph : Graph α) : graph.Recalls graph := ⟨fun _ => rfl, rfl⟩

omit [Element α] in
theorem standing_recalls (before : Graph α) : Standing fun graph => before.Recalls graph where
  push _ _ _ _ held := ⟨held.interned, held.constants⟩
  modify _ _ _ _ _ held := ⟨held.interned, held.constants⟩
  store _ _ held := ⟨held.interned, held.constants⟩
  scripts _ _ held := ⟨held.interned, held.constants⟩
  interned graph operation node held := by
    refine ⟨fun pattern => ?_, held.constants⟩
    show (graph.interned.insert (Key.operation operation) node)[Key.constant pattern]? = _
    rw [Sorted.getElem?_insert, if_neg nofun, held.interned]

/-- A new leaf holds a constant that was not known before. -/
structure Introduces (before : Graph α) (value : α) (node : NodeId) (after : Graph α) : Prop where
  fresh : node = ⟨before.arena.size⟩
  unknown : before.interned[Key.constant (Element.bits value)]? = none
  interned : after.interned = before.interned.insert (.constant (Element.bits value)) node
  constants : after.constants = before.constants.insert node (.constant (Element.bits value))
  constant : after.arena.IsConstant node
  reads : after.reading node = #[value]

/-- Only the pattern of the new constant leads to another node than before. -/
theorem Introduces.getElem?_interned
    (introduces : before.Introduces value node after)
    (pattern : UInt64) :
    after.interned[Key.constant pattern]? =
      if Element.bits value = pattern then some node
      else before.interned[Key.constant pattern]? := by
  rw [introduces.interned, Sorted.getElem?_insert]
  simp only [Key.constant.injEq]

/-- A request for a constant gives the node that is known, or a new one. -/
theorem ends_scalar_introduces
    (valid : graph.Valid pins)
    (value : α) :
    Ends (scalar value) graph
      (fun node after =>
        graph.interned[Key.constant (Element.bits value)]? = some node ∧ after = graph ∨
        graph.Introduces value node after)
      (fun _ _ => False) := by
  unfold scalar
  dsimp only
  rw [ends_bind_iff, ends_get_iff]
  split
  next node known => exact .inl ⟨known, rfl⟩
  next unknown =>
    rw [ends_bind_iff, push, ends_modifyGet_iff, ends_bind_iff, ends_onStore_iff]
    refine (Store.ends_allocateFrom valid.store #[value]).mono ?_ fun _ _ fails => fails
    rintro content store ⟨-, -, -, reads, -⟩
    rw [ends_bind_iff, ends_modifyNode_iff, ends_bind_iff, ends_modify_iff]
    have inside : graph.arena.size < (graph.arena.push .leaf .scalar false).2.size := by
      rw [Arena.size_push]
      exact Nat.lt_succ_self _
    have owned : ((graph.arena.push .leaf .scalar false).2.modify ⟨graph.arena.size⟩
        ({ · with storage := some ⟨content, none⟩, isCurrent := true })).bufferOf?
          ⟨graph.arena.size⟩ .content = some content :=
      (Arena.bufferOf?_modify (fun _ => rfl) inside _ _).trans (if_pos rfl)
    have akin := (graph.arena.push .leaf .scalar false).2.akin_modify ⟨graph.arena.size⟩
      ({ · with storage := some ⟨content, none⟩, isCurrent := true }) fun _ => rfl
    have constant := ((Arena.lasting_isConstant ⟨graph.arena.size⟩).akin _ _ akin
      ⟨valid.arena.push_constant, Arena.isConstant_push graph.arena⟩).2
    exact .inr ⟨rfl, unknown, rfl, rfl, constant, reading_of_bufferOf? owned reads⟩

/-! ## What the tables say -/

/-- The tables are inverse to each other, and what is known as a constant can be one. -/
structure Catalogues (graph : Graph α) : Prop where
  inverse : ∀ pattern node, graph.interned[Key.constant pattern]? = some node ↔
    graph.constants.get? node = some (.constant pattern)
  pattern : ∀ node key, graph.constants.get? node = some key → ∃ pattern, key = .constant pattern
  constant : ∀ pattern node, graph.interned[Key.constant pattern]? = some node →
    graph.arena.IsConstant node

omit [Element α] in
theorem catalogues_of_empty
    (noKeys : graph.interned = ∅)
    (noConstants : graph.constants = Table.empty) :
    graph.Catalogues where
  inverse pattern node := by
    rw [noKeys, noConstants]
    constructor
    · exact fun found => nomatch Std.TreeMap.getElem?_emptyc.symm.trans found
    · exact nofun
  pattern node key listed := by
    rw [noConstants] at listed
    cases listed
  constant pattern node known := by
    rw [noKeys] at known
    cases Std.TreeMap.getElem?_emptyc.symm.trans known

namespace Catalogues

variable (catalogues : before.Catalogues)

include catalogues

omit [Element α] in
theorem of_recalls
    (recalls : before.Recalls after)
    (lasts : ∀ node, before.arena.IsConstant node → after.arena.IsConstant node) :
    after.Catalogues where
  inverse pattern node := by
    rw [recalls.interned, recalls.constants]
    exact catalogues.inverse pattern node
  pattern node key listed := by
    rw [recalls.constants] at listed
    exact catalogues.pattern node key listed
  constant pattern node known := by
    rw [recalls.interned] at known
    exact lasts node (catalogues.constant pattern node known)

/-- The name of a new constant is listed with nothing so far. -/
theorem get?_of_introduces
    (introduces : before.Introduces value node after) :
    before.constants.get? node = none := by
  refine Option.eq_none_iff_forall_ne_some.2 fun key listed => ?_
  obtain ⟨pattern, rfl⟩ := catalogues.pattern node key listed
  have known := (catalogues.inverse pattern node).2 listed
  have inside := (catalogues.constant pattern node known).index_lt
  rw [introduces.fresh] at inside
  exact Nat.lt_irrefl _ inside

/-- A new pair is noted on both sides. -/
theorem of_introduces
    (introduces : before.Introduces value node after)
    (lasts : ∀ node, before.arena.IsConstant node → after.arena.IsConstant node) :
    after.Catalogues where
  inverse pattern other := by
    have old := catalogues.inverse pattern other
    rw [introduces.getElem?_interned, introduces.constants, Table.get?_insert]
    by_cases samePattern : Element.bits value = pattern
    · by_cases same : node = other
      · rw [if_pos samePattern, if_pos same, samePattern, same]
        exact ⟨fun _ => rfl, fun _ => rfl⟩
      · rw [← samePattern, introduces.unknown] at old
        rw [if_pos samePattern, if_neg same, ← samePattern, ← old]
        simp only [Option.some.injEq, same, reduceCtorEq]
    · by_cases same : node = other
      · rw [← same, catalogues.get?_of_introduces introduces] at old
        rw [if_neg samePattern, if_pos same, ← same, old]
        simp only [Option.some.injEq, Key.constant.injEq, samePattern, reduceCtorEq]
      · rw [if_neg samePattern, if_neg same, old]
  pattern other key listed := by
    rw [introduces.constants, Table.get?_insert] at listed
    split at listed
    · exact ⟨_, (Option.some.inj listed).symm⟩
    · exact catalogues.pattern other key listed
  constant pattern other known := by
    rw [introduces.getElem?_interned] at known
    split at known
    · cases known
      exact introduces.constant
    · exact lasts other (catalogues.constant pattern other known)

omit [Element α] in
/-- What the table still says after a leaf was forgotten. -/
theorem getElem?_of_forgets
    (forgets : before.Forgets leaf after)
    (pattern : UInt64)
    (node : NodeId) :
    after.interned[Key.constant pattern]? = some node ↔
      before.interned[Key.constant pattern]? = some node ∧ node ≠ leaf := by
  rw [forgets.interned]
  by_cases forgotten : before.constants.get? leaf = some (.constant pattern)
  · rw [if_pos forgotten]
    have known := (catalogues.inverse pattern leaf).2 forgotten
    rw [known]
    constructor
    · exact nofun
    · rintro ⟨same, different⟩
      exact absurd (Option.some.inj same).symm different
  · rw [if_neg forgotten]
    refine ⟨fun known => ⟨known, ?_⟩, fun both => both.1⟩
    rintro rfl
    exact forgotten ((catalogues.inverse pattern node).1 known)

omit [Element α] in
theorem of_forgets
    (forgets : before.Forgets leaf after)
    (lasts : ∀ node, before.arena.IsConstant node → after.arena.IsConstant node) :
    after.Catalogues where
  inverse pattern node := by
    rw [catalogues.getElem?_of_forgets forgets, forgets.constants]
    by_cases same : node = leaf
    · rw [if_pos same]
      exact ⟨fun both => absurd same both.2, nofun⟩
    · rw [if_neg same, catalogues.inverse]
      exact ⟨fun both => both.1, fun listed => ⟨listed, same⟩⟩
  pattern node key listed := by
    rw [forgets.constants] at listed
    split at listed
    · cases listed
    · exact catalogues.pattern node key listed
  constant pattern node known :=
    lasts node
      (catalogues.constant pattern node ((catalogues.getElem?_of_forgets forgets _ _).1 known).1)

end Catalogues

/-- What is known as a constant holds an element with the pattern under which it is known. -/
def Faithful (graph : Graph α) : Prop :=
  ∀ pattern node, graph.interned[Key.constant pattern]? = some node →
    ∃ value, graph.reading node = #[value] ∧ Element.bits value = pattern

/-- Moves of buffers are nothing to the tables. -/
theorem Rests.recalls (rests : before.Rests after) : before.Recalls after := by
  obtain ⟨store, -, rfl⟩ := rests
  exact ⟨fun _ => rfl, rfl⟩

namespace Faithful

variable (faithful : before.Faithful)

include faithful

/-- Nothing new is known, and what is known reads as before. -/
theorem of_readings
    (fewer : ∀ pattern node, after.interned[Key.constant pattern]? = some node →
      before.interned[Key.constant pattern]? = some node ∧
        after.reading node = before.reading node) :
    after.Faithful := by
  intro pattern node known
  obtain ⟨knownBefore, same⟩ := fewer pattern node known
  obtain ⟨value, reads, bits⟩ := faithful pattern node knownBefore
  exact ⟨value, same.trans reads, bits⟩

theorem of_recalls
    (catalogues : before.Catalogues)
    (recalls : before.Recalls after)
    (spares : before.Spares after) :
    after.Faithful := by
  refine faithful.of_readings fun pattern node known => ?_
  rw [recalls.interned] at known
  exact ⟨known, spares node (catalogues.constant pattern node known).isLeaf⟩

theorem of_introduces
    (catalogues : before.Catalogues)
    (introduces : before.Introduces value node after)
    (spares : before.Spares after) :
    after.Faithful := by
  intro pattern other known
  rw [introduces.getElem?_interned] at known
  split at known
  next same =>
    cases known
    exact ⟨value, introduces.reads, same⟩
  next =>
    obtain ⟨old, reads, bits⟩ := faithful pattern other known
    exact ⟨old, (spares other (catalogues.constant pattern other known).isLeaf).trans reads, bits⟩

/-- The leaf that was overwritten is not known as a constant any more. -/
theorem of_forgets
    (catalogues : before.Catalogues)
    (valid : before.Valid pins)
    {values : Array α}
    (overwrites : before.Overwrites leaf values after)
    (forgets : before.Forgets leaf after) :
    after.Faithful := by
  refine faithful.of_readings fun pattern node known => ?_
  obtain ⟨knownBefore, different⟩ := (catalogues.getElem?_of_forgets forgets pattern node).1 known
  exact ⟨knownBefore, overwrites.reading_other valid different
    (catalogues.constant pattern node knownBefore).isLeaf⟩

/-- A leaf that is moved has a gradient, and no constant has. -/
theorem of_descended
    (catalogues : before.Catalogues)
    (tracked : before.arena.Tracked)
    (valid : before.Valid pins)
    {rate : α}
    (descended : before.Descended leaf rate after)
    (recalls : before.Recalls after) :
    after.Faithful := by
  refine faithful.of_readings fun pattern node known => ?_
  rw [recalls.interned] at known
  have constant := catalogues.constant pattern node known
  obtain ⟨_, gradient, _, _, moved, -, owned, -, -, -, overwrites⟩ := descended
  refine ⟨known, overwrites.reading_other valid ?_ constant.isLeaf⟩
  rintro rfl
  cases (constant.gradient_eq_none tracked).symm.trans owned

end Faithful

/-! ## Requests to a session -/

namespace Session

variable
    {session : Session α}
    {command : Command α}

/--
What a request that succeeds does to what is known about constants and to the leaves that hold
them, unless it clears the graph.
-/
inductive Treats (before after : Graph α) : Command α → Answer α → Prop where
  | recalls
      {command : Command α}
      {answer : Answer α}
      (spared : command.overwrites = false)
      (recalls : before.Recalls after)
      (spares : command.givesUp = false → before.Spares after) :
      Treats before after command answer
  | introduces
      {value : α}
      {node : NodeId}
      (introduces : before.Introduces value node after)
      (spares : before.Spares after) :
      Treats before after (.scalar value) (.node node)
  | forgets
      {leaf : NodeId}
      {values : Array α}
      {answer : Answer α}
      (overwrites : before.Overwrites leaf values after)
      (forgets : before.Forgets leaf after) :
      Treats before after (.setValue leaf values) answer
  | descends
      {leaf : NodeId}
      {rate : α}
      {answer : Answer α}
      (descended : before.Descended leaf rate after)
      (recalls : before.Recalls after) :
      Treats before after (.applyGradient leaf rate) answer

/-- A request that fails leaves what is known about constants as it is, and the leaves with it. -/
theorem ends_perform_treats
    (valid : session.Valid)
    (kept : command ≠ .clear) :
    Ends (perform command) session
      (fun answer after => Treats session.graph after.graph command answer)
      (fun _ after => session.graph.Recalls after.graph ∧
        (command.givesUp = false → session.graph.Spares after.graph)) := by
  have still : (∀ value, command ≠ .scalar value) → command.overwrites = false →
      Ends (perform command) session
        (fun _ after => session.graph.Recalls after.graph ∧
          (command.givesUp = false → session.graph.Spares after.graph))
        (fun _ after => session.graph.Recalls after.graph ∧
          (command.givesUp = false → session.graph.Spares after.graph)) := by
    intro notScalar spared
    have recalls : Ends (perform command) session
        (fun _ after => session.graph.Recalls after.graph)
        (fun _ after => session.graph.Recalls after.graph) := by
      refine ends_perform_of_standing (standing_recalls session.graph) (.refl _) kept
        (fun value same => absurd same (notScalar value)) ?_ ?_
      · rintro leaf values rfl
        cases spared
      · rintro leaf rate rfl
        cases spared
    by_cases keeps : command.givesUp = false
    · exact (recalls.and (ends_perform_spares valid keeps spared)).mono
        (fun _ _ both => ⟨both.1, fun _ => both.2⟩) fun _ _ both => ⟨both.1, fun _ => both.2⟩
    · exact recalls.mono (fun _ _ recalls => ⟨recalls, fun kept => absurd kept keeps⟩)
        fun _ _ recalls => ⟨recalls, fun kept => absurd kept keeps⟩
  cases command with
  | scalar value =>
    show Ends (Answer.node <$> onGraph (Graph.scalar value)) session _ _
    rw [ends_map_iff, ends_onGraph_iff]
    refine ((ends_scalar_introduces valid value).and (ends_scalar valid value)).mono ?_
      fun _ _ never => never.1.elim
    rintro node after ⟨⟨-, rfl⟩ | introduces, keeps⟩
    · exact .recalls rfl (.refl _) fun _ => .refl _
    · exact .introduces introduces (keeps.spares_of_empty valid)
  | setValue leaf values =>
    show Ends ((fun _ => Answer.done) <$> onGraph (Graph.setValue leaf values)) session _ _
    rw [ends_map_iff, ends_onGraph_iff]
    exact (ends_setValue_overwrites valid leaf values).mono
      (fun _ _ done => .forgets done.1 done.2)
      fun _ _ rests => ⟨rests.recalls, fun _ => (rests.keeps valid).spares_of_empty valid⟩
  | applyGradient leaf rate =>
    show Ends ((fun _ => Answer.done) <$> onGraph (Graph.applyGradient leaf rate)) session _ _
    rw [ends_map_iff, ends_onGraph_iff]
    exact (ends_applyGradient_descended valid leaf rate).mono
      (fun _ _ done => .descends done.1 ⟨fun _ => by rw [done.2.1], done.2.2⟩)
      fun _ _ rests => ⟨rests.recalls, fun _ => (rests.keeps valid).spares_of_empty valid⟩
  | clear => exact absurd rfl kept
  | _ =>
    exact (still nofun rfl).mono (fun _ _ done => .recalls rfl done.1 done.2)
      fun _ _ failed => failed

/-- A node that can be a constant stays one as long as the graph is not cleared. -/
theorem isConstant_step
    (valid : session.Valid)
    (kept : command ≠ .clear)
    (node : NodeId)
    (constant : session.graph.arena.IsConstant node) :
    (session.step command).2.graph.arena.IsConstant node :=
  (step_of_ends (lasting_perform (Arena.lasting_isConstant node) kept session
    ⟨valid.arena, constant⟩)).2

theorem catalogues_step
    (valid : session.Valid)
    (catalogues : session.graph.Catalogues)
    (command : Command α) :
    (session.step command).2.graph.Catalogues := by
  by_cases cleared : command = .clear
  · subst cleared
    exact catalogues_of_empty rfl rfl
  have lasts := isConstant_step valid cleared
  cases outcome : (session.step command).1 with
  | error reason =>
    exact catalogues.of_recalls (step_of_error (ends_perform_treats valid cleared) outcome).1 lasts
  | ok answer =>
    cases step_of_ok (ends_perform_treats valid cleared) outcome with
    | recalls _ recalls => exact catalogues.of_recalls recalls lasts
    | introduces introduces => exact catalogues.of_introduces introduces lasts
    | forgets _ forgets => exact catalogues.of_forgets forgets lasts
    | descends _ recalls => exact catalogues.of_recalls recalls lasts

theorem catalogues_run
    (valid : session.Valid)
    (catalogues : session.graph.Catalogues)
    (commands : List (Command α)) :
    (session.run commands).graph.Catalogues := by
  induction commands generalizing session with
  | nil => exact catalogues
  | cons command commands rest =>
    exact rest (step_evolves valid command).valid (catalogues_step valid catalogues command)

theorem faithful_step
    (valid : session.Valid)
    (tracked : session.graph.arena.Tracked)
    (catalogues : session.graph.Catalogues)
    (faithful : session.graph.Faithful)
    (kept : command.givesUp = false) :
    (session.step command).2.graph.Faithful := by
  by_cases cleared : command = .clear
  · subst cleared
    exact nofun
  cases outcome : (session.step command).1 with
  | error reason =>
    obtain ⟨recalls, spares⟩ := step_of_error (ends_perform_treats valid cleared) outcome
    exact faithful.of_recalls catalogues recalls (spares kept)
  | ok answer =>
    cases step_of_ok (ends_perform_treats valid cleared) outcome with
    | recalls _ recalls spares => exact faithful.of_recalls catalogues recalls (spares kept)
    | introduces introduces spares => exact faithful.of_introduces catalogues introduces spares
    | forgets overwrites forgets => exact faithful.of_forgets catalogues valid overwrites forgets
    | descends descended recalls =>
      exact faithful.of_descended catalogues tracked valid descended recalls

theorem faithful_run
    (valid : session.Valid)
    (tracked : session.graph.arena.Tracked)
    (catalogues : session.graph.Catalogues)
    (faithful : session.graph.Faithful)
    {commands : List (Command α)}
    (kept : ∀ command ∈ commands, command.givesUp = false) :
    (session.run commands).graph.Faithful := by
  induction commands generalizing session with
  | nil => exact faithful
  | cons command commands rest =>
    have evolves := step_evolves valid command
    exact rest evolves.valid (evolves.tracked tracked) (catalogues_step valid catalogues command)
      (faithful_step valid tracked catalogues faithful (kept command List.mem_cons_self))
      fun other member => kept other (List.mem_cons_of_mem _ member)

/-! ## Constants in the course of a run -/

/-- A constant that is known stays known unless its node is overwritten. -/
theorem known_step
    (valid : session.Valid)
    (catalogues : session.graph.Catalogues)
    {pattern : UInt64}
    {node : NodeId}
    (known : session.graph.interned[Key.constant pattern]? = some node)
    (kept : command ≠ .clear)
    (intact : ∀ values answer, command = .setValue node values →
      (session.step command).1 ≠ .ok answer) :
    (session.step command).2.graph.interned[Key.constant pattern]? = some node := by
  cases outcome : (session.step command).1 with
  | error reason =>
    rw [(step_of_error (ends_perform_treats valid kept) outcome).1.interned, known]
  | ok answer =>
    cases step_of_ok (ends_perform_treats valid kept) outcome with
    | recalls _ recalls => rw [recalls.interned, known]
    | introduces introduces =>
      rw [introduces.getElem?_interned, if_neg, known]
      rintro rfl
      cases introduces.unknown.symm.trans known
    | forgets _ forgets =>
      refine (catalogues.getElem?_of_forgets forgets pattern node).2 ⟨known, ?_⟩
      rintro rfl
      exact intact _ answer rfl outcome
    | descends _ recalls => rw [recalls.interned, known]

/-- A node that is no constant does not become one. -/
theorem unlisted_step
    (valid : session.Valid)
    {node : NodeId}
    (unlisted : session.graph.constants.get? node = none)
    (inside : node.index < session.graph.arena.size)
    (kept : command ≠ .clear) :
    (session.step command).2.graph.constants.get? node = none := by
  cases outcome : (session.step command).1 with
  | error reason =>
    rw [(step_of_error (ends_perform_treats valid kept) outcome).1.constants, unlisted]
  | ok answer =>
    cases step_of_ok (ends_perform_treats valid kept) outcome with
    | recalls _ recalls => rw [recalls.constants, unlisted]
    | introduces introduces =>
      rw [introduces.constants, Table.get?_insert, if_neg, unlisted]
      rintro rfl
      rw [introduces.fresh] at inside
      exact Nat.lt_irrefl _ inside
    | forgets _ forgets => rw [forgets.constants, unlisted, ite_self]
    | descends _ recalls => rw [recalls.constants, unlisted]

/-- A node is there during a whole run. -/
def Persists (session : Session α) (node : NodeId) (commands : List (Command α)) : Prop :=
  ∀ early late, commands = early ++ late → node.index < (session.run early).graph.arena.size

/-- A node is given new values in the course of a run. -/
def Replaced (session : Session α) (node : NodeId) (commands : List (Command α)) : Prop :=
  ∃ early values late answer, commands = early ++ .setValue node values :: late ∧
    ((session.run early).step (.setValue node values)).1 = .ok answer

section

variable
    {commands : List (Command α)}
    {node : NodeId}

theorem lt_size_run
    (valid : session.Valid)
    (inside : node.index < session.graph.arena.size)
    (kept : .clear ∉ commands) :
    node.index < (session.run commands).graph.arena.size := by
  obtain ⟨found, present⟩ := Option.isSome_iff_exists.1 ((Arena.node?_isSome_iff node).2 inside)
  have computes : session.graph.arena.operation? node = some found.operation := by
    rw [Arena.operation?, present, Option.map_some]
  have each : ∀ command ∈ commands, command ≠ .clear := by
    rintro command member rfl
    exact kept member
  exact lt_size_of_operation? ((retains_run valid.arena each).operation node _ computes)

/-- A node is there as long as the graph is not cleared. -/
theorem persists_iff
    (valid : session.Valid)
    (inside : node.index < session.graph.arena.size) :
    session.Persists node commands ↔ .clear ∉ commands := by
  constructor
  · intro persists member
    obtain ⟨early, late, rfl⟩ := List.append_of_mem member
    have empty := persists (early ++ [.clear]) late (by simp)
    rw [run_append] at empty
    exact absurd empty (Nat.not_lt_zero _)
  · rintro kept early late rfl
    exact lt_size_run valid inside fun member => kept (List.mem_append_left _ member)

theorem known_run
    (valid : session.Valid)
    (catalogues : session.graph.Catalogues)
    {pattern : UInt64}
    (known : session.graph.interned[Key.constant pattern]? = some node)
    (kept : .clear ∉ commands)
    (intact : ¬ session.Replaced node commands) :
    (session.run commands).graph.interned[Key.constant pattern]? = some node := by
  induction commands generalizing session with
  | nil => exact known
  | cons command commands rest =>
    refine rest (step_evolves valid command).valid (catalogues_step valid catalogues command)
      (known_step valid catalogues known ?_ ?_)
      (fun member => kept (List.mem_cons_of_mem _ member)) ?_
    · rintro rfl
      exact kept List.mem_cons_self
    · rintro values answer rfl answered
      exact intact ⟨[], values, commands, answer, rfl, answered⟩
    · rintro ⟨early, values, late, answer, rfl, answered⟩
      exact intact ⟨command :: early, values, late, answer, rfl, answered⟩

theorem unlisted_run
    (valid : session.Valid)
    (unlisted : session.graph.constants.get? node = none)
    (inside : node.index < session.graph.arena.size)
    (kept : .clear ∉ commands) :
    (session.run commands).graph.constants.get? node = none := by
  induction commands generalizing session with
  | nil => exact unlisted
  | cons command commands rest =>
    have first : command ≠ .clear := by
      rintro rfl
      exact kept List.mem_cons_self
    have once : node.index < (session.run [command]).graph.arena.size :=
      lt_size_run valid inside fun member => first (List.mem_singleton.1 member).symm
    exact rest (step_evolves valid command).valid (unlisted_step valid unlisted inside first) once
      fun member => kept (List.mem_cons_of_mem _ member)

/-- What was overwritten is no constant, whatever is asked for afterwards. -/
theorem unlisted_of_replaced
    (valid : session.Valid)
    (kept : .clear ∉ commands)
    (replaced : session.Replaced node commands) :
    (session.run commands).graph.constants.get? node = none := by
  obtain ⟨early, values, late, answer, rfl, answered⟩ := replaced
  have validEarly := (run_evolves valid early).valid
  rw [run_append]
  change Table.get? (((session.run early).step (.setValue node values)).2.run late).graph.constants
    node = none
  have present : (.setValue node values : Command α) ≠ .clear := nofun
  cases step_of_ok (ends_perform_treats validEarly present) answered with
  | recalls spared => cases spared
  | forgets overwrites forgets =>
    refine unlisted_run (step_evolves validEarly _).valid ?_ ?_ fun member =>
      kept (List.mem_append_right _ (List.mem_cons_of_mem _ member))
    · rw [forgets.constants, if_pos rfl]
    · have once : node.index <
          ((session.run early).run [.setValue node values]).graph.arena.size :=
        lt_size_run validEarly (lt_size_of_operation? overwrites.isLeaf) nofun
      exact once

end

/-- A constant can always be asked for; its node is the one that is known, or a new one. -/
theorem scalar_answered
    (valid : session.Valid)
    (value : α) :
    ∃ node, (session.step (.scalar value)).1 = .ok (.node node) ∧
      (session.graph.interned[Key.constant (Element.bits value)]? = some node ∨
        session.graph.interned[Key.constant (Element.bits value)]? = none ∧
          node = ⟨session.graph.arena.size⟩) ∧
      (session.step (.scalar value)).2.graph.interned[Key.constant (Element.bits value)]? =
        some node := by
  have ends : Ends (perform (.scalar value)) session
      (fun answer after => ∃ node, answer = .node node ∧
        (session.graph.interned[Key.constant (Element.bits value)]? = some node ∨
          session.graph.interned[Key.constant (Element.bits value)]? = none ∧
            node = ⟨session.graph.arena.size⟩) ∧
        after.graph.interned[Key.constant (Element.bits value)]? = some node)
      (fun _ _ => False) := by
    show Ends (Answer.node <$> onGraph (Graph.scalar value)) session _ _
    rw [ends_map_iff, ends_onGraph_iff]
    refine (ends_scalar_introduces valid value).mono ?_ fun _ _ never => never
    rintro node after (⟨known, rfl⟩ | introduces)
    · exact ⟨node, rfl, .inl known, known⟩
    · refine ⟨node, rfl, .inr ⟨introduces.unknown, introduces.fresh⟩, ?_⟩
      show after.interned[Key.constant (Element.bits value)]? = some node
      rw [introduces.getElem?_interned, if_pos rfl]
  obtain ⟨_, answered, node, rfl, before, after⟩ := step_eq_ok ends
  exact ⟨node, answered, before, after⟩

/--
Two requests for constants give the same node, there all along, just if the patterns agree and
nothing in between overwrote the node or cleared the graph.
-/
theorem scalar_eq_iff
    (valid : session.Valid)
    (catalogues : session.graph.Catalogues)
    {value other : α}
    {first second : NodeId}
    {middle : Session α}
    {further : List (Command α)}
    (answered : session.step (.scalar value) = (.ok (.node first), middle))
    (answeredAgain : ((middle.run further).step (.scalar other)).1 = .ok (.node second)) :
    second = first ∧ middle.Persists first further ↔
      Element.bits value = Element.bits other ∧ .clear ∉ further ∧
        ¬ middle.Replaced first further := by
  have validMiddle : middle.Valid := by
    have evolves := step_evolves valid (.scalar value)
    rw [answered] at evolves
    exact evolves.valid
  have cataloguesMiddle : middle.graph.Catalogues := by
    have kept := catalogues_step valid catalogues (.scalar value)
    rwa [answered] at kept
  have validLast := (run_evolves validMiddle further).valid
  have cataloguesLast := catalogues_run validMiddle cataloguesMiddle further
  have known : middle.graph.interned[Key.constant (Element.bits value)]? = some first := by
    obtain ⟨node, same, -, known⟩ := scalar_answered valid value
    rw [answered] at same known
    cases same
    exact known
  have inside := (cataloguesMiddle.constant _ _ known).index_lt
  obtain ⟨_, same, found, -⟩ := scalar_answered validLast other
  cases answeredAgain.symm.trans same
  rw [persists_iff validMiddle inside]
  constructor
  · rintro ⟨rfl, kept⟩
    -- the node is not new, so that the second request finds it under its pattern
    have knownLast : (middle.run further).graph.interned[Key.constant (Element.bits other)]? =
        some second := by
      rcases found with found | ⟨-, rfl⟩
      · exact found
      · exact absurd (lt_size_run validMiddle inside kept) (Nat.lt_irrefl _)
    have listed := (cataloguesLast.inverse _ _).1 knownLast
    have intact : ¬ middle.Replaced second further := fun replaced => by
      cases (unlisted_of_replaced validMiddle kept replaced).symm.trans listed
    have stays := known_run validMiddle cataloguesMiddle known kept intact
    have listedFirst := (cataloguesLast.inverse _ _).1 stays
    exact ⟨Key.constant.inj (Option.some.inj (listedFirst.symm.trans listed)), kept, intact⟩
  · rintro ⟨same, kept, intact⟩
    have stays := known_run validMiddle cataloguesMiddle known kept intact
    rw [same] at stays
    rcases found with found | ⟨unknown, -⟩
    · exact ⟨Option.some.inj (found.symm.trans stays), kept⟩
    · cases unknown.symm.trans stays

variable
    {capacity : Nat}
    {device : DeviceId}
    {unsupported : List OpCode}
    {faults : Method → Nat → Option DeviceError}
    {config : Config}
    {commands : List (Command α)}

/--
In every session that a run of requests leads to, the tables of constants are inverse to each
other, and what is known as a constant is a leaf of a single element that is not to be trained.
If no contents were given up, this element has the pattern under which it is known, and every
request for a constant gives a node whose value has the pattern of the constant.  Two requests
for constants give one and the same node just if the patterns agree and nothing in between
overwrote the node or cleared the graph.
-/
theorem constants_never_confused
    (reached : (start capacity device unsupported faults config).run commands = session) :
    session.graph.Catalogues ∧
    ((∀ command ∈ commands, command.givesUp = false) →
      session.graph.Faithful ∧
      ∀ value : α, ∃ node held, (session.step (.scalar value)).1 = .ok (.node node) ∧
        Element.bits held = Element.bits value ∧
        (session.step (.scalar value)).2.graph.meaning node 1 = #[held] ∧
        ∀ values, ((session.step (.scalar value)).2.step (.value node)).1 = .ok (.values values) →
          values = #[held]) ∧
    ∀ (value other : α) (first second : NodeId) (middle : Session α)
      (further : List (Command α)),
      session.step (.scalar value) = (.ok (.node first), middle) →
      ((middle.run further).step (.scalar other)).1 = .ok (.node second) →
      (second = first ∧ middle.Persists first further ↔
        Element.bits value = Element.bits other ∧ .clear ∉ further ∧
          ¬ middle.Replaced first further) := by
  have valid : session.Valid := by
    rw [← reached]
    exact run_valid ..
  have empty : Catalogues (start capacity device unsupported faults config : Session α).graph :=
    catalogues_of_empty rfl rfl
  have catalogues : session.graph.Catalogues := by
    rw [← reached]
    exact catalogues_run (start_valid ..) empty commands
  refine ⟨catalogues, fun kept => ?_, fun _ _ _ _ _ _ => scalar_eq_iff valid catalogues⟩
  have tracked : session.graph.arena.Tracked := by
    rw [← reached]
    exact run_tracked capacity device unsupported faults config commands
  have faithful : session.graph.Faithful := by
    rw [← reached]
    exact faithful_run (start_valid ..) Arena.tracked_empty empty nofun kept
  have coherent : session.graph.Coherent := by
    rw [← reached]
    exact run_coherent _ _ _ _ _ commands kept
  refine ⟨faithful, fun value => ?_⟩
  obtain ⟨node, answered, -, known⟩ := scalar_answered valid value
  have evolves := step_evolves valid (.scalar value)
  have constant := (catalogues_step valid catalogues (.scalar value)).constant _ _ known
  have keeps : (.scalar value : Command α).givesUp = false := rfl
  obtain ⟨held, reads, bits⟩ := faithful_step valid tracked catalogues faithful keeps _ _ known
  have means : (session.step (.scalar value)).2.graph.meaning node 1 = #[held] := by
    rw [← reading_leaf evolves.valid constant.isLeaf constant.shape Shape.size_scalar, reads]
  refine ⟨node, held, answered, bits, means, fun values answeredValue => ?_⟩
  obtain ⟨shape, size, shaped, sized, equal⟩ :=
    value_answered evolves.valid (evolves.coherent rfl coherent) answeredValue
  cases constant.shape.symm.trans shaped
  cases Shape.size_scalar.symm.trans sized
  rw [equal, means]

/-- A seven that is overwritten by an eight is made anew when a seven is asked for again. -/
theorem constants_never_confused_scaling :
    (∃ held : Int, Element.bits held = Element.bits (7 : Int) ∧
      ((onIntegers scaling).step (.scalar 7)).2.graph.meaning ⟨1⟩ 1 = #[held]) ∧
    ((((onIntegers scaling).step (.scalar 7)).2.run [.setValue ⟨1⟩ #[8]]).step (.scalar 7)).1 =
      .ok (.node ⟨3⟩) ∧
    ((onIntegers scaling).step (.scalar 7)).2.Replaced ⟨1⟩ [.setValue ⟨1⟩ #[8]] := by
  have known : ((onIntegers scaling).step (.scalar 7)).1 = .ok (.node ⟨1⟩) := by
    cbv
  have anew : ((((onIntegers scaling).step (.scalar 7)).2.run [.setValue ⟨1⟩ #[8]]).step
      (.scalar 7)).1 = .ok (.node ⟨3⟩) := by
    cbv
  obtain ⟨-, holds, same⟩ := constants_never_confused (run_eq_onIntegers scaling)
  obtain ⟨-, gives⟩ := holds (by decide)
  refine ⟨?_, anew, ?_⟩
  · obtain ⟨node, held, answered, bits, means, -⟩ := gives 7
    cases known.symm.trans answered
    exact ⟨held, bits, means⟩
  · by_contra intact
    have both := same 7 7 ⟨1⟩ ⟨3⟩ _ [.setValue ⟨1⟩ #[8]] (Prod.ext known rfl) anew
    have kept : .clear ∉ [(.setValue ⟨1⟩ #[8] : Command Int)] := fun member => by
      cases List.mem_singleton.1 member
    cases (both.2 ⟨rfl, kept, intact⟩).1

end Session

end Graph

end Elementwise
