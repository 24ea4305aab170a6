import Elementwise.Proofs.Buffer.Recency
import Elementwise.Proofs.Graph.Interning
import Elementwise.Proofs.Graph.Renaming
import Elementwise.Proofs.Graph.Standing

/-!
# What new values of a leaf change

A leaf gets new values when they are given or when it is moved against its
gradient.  Either way its content is written, the nodes that are reached from
it through users are not up to date any more, and nothing else changes: not the
leaf itself as a node, no node that is not reached, no other content, no
gradient, no script, and of what is known about constants only that the leaf is
one.

A node that is up to date stays so as long as no leaf is overwritten, and to
ask for its value launches nothing.
-/

namespace Elementwise

/-! ## Reached through users -/

namespace Arena

variable
    {arena : Arena}
    {source node : NodeId}

/-- A user of a node, a user of one of its users, and so on. -/
def Reaches (arena : Arena) : NodeId → NodeId → Prop :=
  Relation.TransGen fun node user => user ∈ arena.users node

/-- What is reached from a node depends on it and was created later. -/
theorem Reaches.dependsOn
    (sound : arena.Sound)
    (reaches : arena.Reaches source node) :
    arena.DependsOn node source ∧ source.index < node.index := by
  induction reaches with
  | single isUser =>
    have operand := (sound.users _ _).1 isUser
    exact ⟨.single operand, sound.ordered _ _ operand⟩
  | tail _ isUser step =>
    have operand := (sound.users _ _).1 isUser
    exact ⟨step.1.head operand, Nat.lt_trans step.2 (sound.ordered _ _ operand)⟩

/-- The nodes that are reached through users are those downstream. -/
theorem reaches_iff_downstream (sound : arena.Sound) :
    arena.Reaches source node ↔ arena.Downstream source node := by
  constructor
  · intro reaches
    obtain ⟨depends, later⟩ := reaches.dependsOn sound
    refine ⟨depends, ?_⟩
    rintro rfl
    exact Nat.lt_irrefl _ later
  · rintro ⟨depends, different⟩
    induction depends using Relation.ReflTransGen.head_induction_on with
    | refl => exact absurd rfl different
    | @head user operand isOperand _ step =>
      have isUser := (sound.users operand user).2 isOperand
      by_cases same : operand = source
      · exact .single (same ▸ isUser)
      · exact (step same).tail isUser

theorem not_reaches_self (sound : arena.Sound) : ¬ arena.Reaches node node := fun reaches =>
  Nat.lt_irrefl _ (reaches.dependsOn sound).2

theorem node?_invalidate_of_reaches
    (sound : arena.Sound)
    (reaches : arena.Reaches source node) :
    (arena.invalidate source).node? node =
      (arena.node? node).map ({ · with isCurrent := false }) := by
  have marked := (reach_users_iff sound source node).2 ((reaches_iff_downstream sound).1 reaches)
  rw [node?_invalidate]
  simp only [marked, if_pos]

theorem node?_invalidate_of_not_reaches
    (sound : arena.Sound)
    (unreached : ¬ arena.Reaches source node) :
    (arena.invalidate source).node? node = arena.node? node := by
  have unmarked := mt (reach_users_iff sound source node).1
    (mt (reaches_iff_downstream sound).2 unreached)
  rw [node?_invalidate]
  simp only [unmarked, if_neg, Option.map_id', not_false_eq_true]

/-- A change that outdates no node leaves every node up to date that was. -/
theorem IsCurrent.modify
    {other : NodeId}
    (current : arena.IsCurrent other)
    (node : NodeId)
    {change : Node → Node}
    (kept : ∀ found, found.isCurrent = true → (change found).isCurrent = true) :
    (arena.modify node change).IsCurrent other := by
  obtain ⟨found, present, upToDate⟩ := current
  unfold IsCurrent
  rw [node?_modify, present]
  split
  · exact ⟨change found, rfl, kept found upToDate⟩
  · exact ⟨found, rfl, upToDate⟩

end Arena

namespace Store

variable
    {α : Type}
    [Arithmetic α]
    {buffer : BufferId}

/-! ## Reading launches nothing -/

/-- How often the accelerator was asked to launch a kernel, and how often it did. -/
def launches (store : Store α) : Nat × Nat :=
  (store.accelerator.calls.launch, store.accelerator.pool.counters.launches)

theorem launches_discard
    (store : Store α)
    (contents : Contents α)
    (buffers : Table BufferId (Buffer α)) :
    launches
        { store with
          accelerator := contents.discardOn store.accelerator
          buffers := buffers } =
      store.launches := by
  cases contents with
  | empty => rfl
  | host values => rfl
  | device block =>
    unfold launches Contents.discardOn Accelerator.free Pool.free Pool.takeBack
    dsimp only
    split
    · split <;> rfl
    · rfl

/-- Contents are replaced, and the block behind them taken back, without a launch. -/
theorem launches_replace
    (store : Store α)
    (buffer : BufferId)
    (contents : Contents α) :
    (store.replace buffer contents).launches = store.launches := by
  unfold replace
  split
  · rfl
  · exact launches_discard ..

theorem launches_unpin
    (store : Store α)
    (buffer : BufferId) :
    (store.unpin buffer).launches = store.launches := by
  unfold unpin reclaim
  split
  · rfl
  · split
    · rfl
    · exact launches_discard ..

omit [Arithmetic α] in
theorem launches_download
    {pool after : Pool α}
    {block : Block}
    {length : Nat}
    {values : Array α}
    (downloads : pool.download block length = .ok (values, after)) :
    after.counters.launches = pool.counters.launches := by
  obtain ⟨current, -, checked⟩ := bind_eq_ok_iff.1 downloads
  obtain ⟨-, -, returned⟩ := bind_eq_ok_iff.1 checked
  cases returned
  rfl

/-- Contents are moved to the host without a launch. -/
theorem retreating_launches (count : Nat × Nat) :
    Retreating (fun store : Store α => store.launches = count) where
  download block length := by
    refine .bind (fun store held => ?_) fun outcome => ?_
    · unfold Ends attempt Accelerator.download Accelerator.call
      dsimp only
      cases store.accelerator.faults .download (store.accelerator.calls.get .download) with
      | some reason => exact held
      | none =>
        cases downloads : store.accelerator.pool.download block length with
        | error reason => exact held
        | ok result =>
          rw [← held]
          exact congrArg (Prod.mk _) (launches_download downloads)
    · cases outcome with
      | ok answer => exact .pure answer
      | error reason => exact .throw _
  replace store buffer contents held := (launches_replace store buffer contents).trans held

/-- To read a buffer launches nothing. -/
theorem launches_read (count : Nat × Nat) :
    Preserves (fun store : Store α => store.launches = count)
      (Store.read buffer : Action α (Array α)) :=
  (retreating_launches count).read (fun _ _ held => held) (fun _ _ held => held)
    fun store buffer held => (launches_unpin store buffer).trans held

end Store

namespace Graph

variable
    {α : Type}
    [Element α]
    {graph before after : Graph α}
    {pins : BufferId → Nat}
    {leaf : NodeId}
    {values : Array α}

/-! ## What overwriting leaves alone -/

namespace Overwrites

variable (overwrites : before.Overwrites leaf values after)

include overwrites

/-- Nodes that are reached through users are out of date, and nothing else about them changes. -/
theorem node?_of_reaches
    (valid : before.Valid pins)
    {node : NodeId}
    (reaches : before.arena.Reaches leaf node) :
    after.arena.node? node = (before.arena.node? node).map ({ · with isCurrent := false }) := by
  rw [overwrites.arena]
  exact Arena.node?_invalidate_of_reaches valid.arena reaches

theorem node?_of_not_reaches
    (valid : before.Valid pins)
    {node : NodeId}
    (unreached : ¬ before.arena.Reaches leaf node) :
    after.arena.node? node = before.arena.node? node := by
  rw [overwrites.arena]
  exact Arena.node?_invalidate_of_not_reaches valid.arena unreached

/-- Every buffer of a node but the content of the leaf reads as it did. -/
theorem reading?
    (valid : before.Valid pins)
    {node : NodeId}
    {part : Part}
    {buffer : BufferId}
    (owned : before.arena.bufferOf? node part = some buffer)
    (other : ¬ (node = leaf ∧ part = .content)) :
    after.store.reading? buffer = before.store.reading? buffer := by
  obtain ⟨content, ownedContent, frame, -⟩ := overwrites.written
  refine frame.readings buffer (Set.notMem_empty _) ?_
  rintro rfl
  exact other (valid.apart node leaf part .content buffer owned ownedContent)

/-- A node that is up to date and not reached stays up to date. -/
theorem isCurrent
    (valid : before.Valid pins)
    {node : NodeId}
    (current : before.arena.IsCurrent node)
    (unreached : ¬ before.arena.Reaches leaf node) :
    after.arena.IsCurrent node := by
  obtain ⟨found, present, upToDate⟩ := current
  exact ⟨found, (overwrites.node?_of_not_reaches valid unreached).trans present, upToDate⟩

end Overwrites

/-! ## Nodes that stay up to date -/

omit [Element α] in
/-- That a node is up to date stands as long as no leaf is overwritten. -/
theorem standing_isCurrent (node : NodeId) :
    Standing fun graph : Graph α => graph.arena.IsCurrent node where
  push _ _ _ _ held := (Arena.isCurrent_push ..).2 held
  modify _ other _ _ kept held := held.modify other kept
  store _ _ held := held
  scripts _ _ held := held
  interned _ _ _ held := held

/-- To bring a node up to date that is so already asks nothing of the store. -/
theorem ends_materialize_of_isCurrent
    (valid : graph.Valid pins)
    {output : NodeId}
    (current : graph.arena.IsCurrent output) :
    Ends (materialize output) graph (fun _ after => after.store = graph.store)
      (fun _ after => after.store = graph.store) := by
  obtain ⟨found, present, upToDate⟩ := current
  obtain ⟨buffer, owned⟩ := valid.current output ⟨found, present, upToDate⟩
  rw [Arena.bufferOf?, present, Option.bind_some] at owned
  have stored : found.storage.isNone = false := by
    obtain ⟨storage, has, -⟩ := Option.map_eq_some_iff.1 owned
    rw [has]
    rfl
  have marked : (graph.arena.modify output ({ · with isOutput := true })).node? output =
      some { found with isOutput := true } := by
    rw [Arena.node?_modify, if_pos rfl, present, Option.map_some]
  unfold materialize markOutput
  rw [ends_bind_iff, ends_bind_iff]
  refine ends_node ?_ fun _ => rfl
  intro same presentSame
  cases present.symm.trans presentSame
  rw [ends_bind_iff, ends_modifyNode_iff, stored]
  show Ends (content output >>= _) _ _ _
  rw [ends_bind_iff]
  refine ends_content ?_ fun _ => rfl
  intro target _
  rw [ends_bind_iff]
  refine ends_node ?_ fun _ => rfl
  intro again presentAgain
  cases marked.symm.trans presentAgain
  rw [if_pos upToDate]
  rfl

/-- To ask for the value of a node that is up to date launches nothing. -/
theorem ends_value_of_isCurrent
    (valid : graph.Valid pins)
    {output : NodeId}
    (current : graph.arena.IsCurrent output) :
    Ends (value output) graph (fun _ after => after.store.launches = graph.store.launches)
      (fun _ after => after.store.launches = graph.store.launches) := by
  unfold value
  rw [ends_bind_iff]
  refine (ends_materialize_of_isCurrent valid current).mono ?_
    fun _ _ same => congrArg Store.launches same
  intro target middle same
  rw [ends_onStore_iff]
  exact Store.launches_read graph.store.launches middle.store (congrArg Store.launches same)

/-! ## Sessions -/

namespace Session

variable
    {session before after : Session α}
    {node : NodeId}

theorem isCurrent_run
    (current : session.graph.arena.IsCurrent node)
    {commands : List (Command α)}
    (kept : ∀ command ∈ commands, command.overwrites = false) :
    (session.run commands).graph.arena.IsCurrent node := by
  have standing : Standing fun graph : Graph α => graph.arena.IsCurrent node :=
    standing_isCurrent node
  have each : ∀ command ∈ commands,
      Preserves (fun session : Session α => session.graph.arena.IsCurrent node)
        (perform command) := by
    intro command member session held
    refine ends_perform_of_standing standing held ?_
      (fun value _ => standing.stepwise.scalar (fun _ _ _ held => held) value session.graph held)
      ?_ ?_
    · rintro rfl
      exact absurd (kept _ member) nofun
    · rintro leaf values rfl
      exact absurd (kept _ member) nofun
    · rintro leaf rate rfl
      exact absurd (kept _ member) nofun
  exact run_of_preserves each current

/-- To ask for the value of a node that is up to date launches nothing, as long as it stays so. -/
theorem launches_value
    (valid : session.Valid)
    (current : session.graph.arena.IsCurrent node)
    {commands : List (Command α)}
    (kept : ∀ command ∈ commands, command.overwrites = false) :
    ((session.run commands).step (.value node)).2.graph.store.launches =
      (session.run commands).graph.store.launches := by
  have validLater := (run_evolves valid commands).valid
  have currentLater := isCurrent_run current kept
  generalize session.run commands = later at validLater currentLater ⊢
  have quiet : Ends (perform (.value node)) later
      (fun _ after => after.graph.store.launches = later.graph.store.launches)
      (fun _ after => after.graph.store.launches = later.graph.store.launches) := by
    show Ends (Answer.values <$> onGraph (Graph.value node)) later _ _
    rw [ends_map_iff, ends_onGraph_iff]
    exact ends_value_of_isCurrent validLater currentLater
  exact step_of_ends quiet

/--
A leaf has new values, the nodes that are reached from it through users are out of date, and
nothing else is different.
-/
structure Overwrites
    (before : Session α)
    (leaf : NodeId)
    (values : Array α)
    (after : Session α) : Prop where
  content : ∃ buffer, before.graph.arena.bufferOf? leaf .content = some buffer ∧
    after.graph.store.reading? buffer = some values
  /-- Apart from its flag, a node that is reached is what it was. -/
  outdated : ∀ node, before.graph.arena.Reaches leaf node →
    after.graph.arena.node? node =
      (before.graph.arena.node? node).map ({ · with isCurrent := false })
  kept : ∀ node, ¬ before.graph.arena.Reaches leaf node →
    after.graph.arena.node? node = before.graph.arena.node? node
  itself : ¬ before.graph.arena.Reaches leaf leaf
  readings : ∀ node part buffer, before.graph.arena.bufferOf? node part = some buffer →
    ¬ (node = leaf ∧ part = .content) →
    after.graph.store.reading? buffer = before.graph.store.reading? buffer
  /-- The node that computes an operation is found as before. -/
  operations : ∀ operation, after.graph.interned[Key.operation operation]? =
    before.graph.interned[Key.operation operation]?
  scripts : after.graph.scripts = before.graph.scripts
  config : after.graph.config = before.graph.config
  pins : after.pins = before.pins
  /-- Until a leaf is overwritten again, nothing is launched for the value of a node at rest. -/
  idle : ∀ node, before.graph.arena.IsCurrent node → ¬ before.graph.arena.Reaches leaf node →
    ∀ further : List (Command α), (∀ command ∈ further, command.overwrites = false) →
      ((after.run further).step (.value node)).2.graph.store.launches =
        (after.run further).graph.store.launches

theorem overwrites_of_graph
    (valid : before.Valid)
    (validAfter : after.Valid)
    {leaf : NodeId}
    {values : Array α}
    (overwrites : before.graph.Overwrites leaf values after.graph)
    (operations : ∀ operation, after.graph.interned[Key.operation operation]? =
      before.graph.interned[Key.operation operation]?)
    (pins : after.pins = before.pins) :
    before.Overwrites leaf values after where
  content := by
    obtain ⟨content, owned, -, reads⟩ := overwrites.written
    exact ⟨content, owned, reads⟩
  outdated _ reaches := overwrites.node?_of_reaches valid reaches
  kept _ unreached := overwrites.node?_of_not_reaches valid unreached
  itself := Arena.not_reaches_self valid.arena
  readings _ _ _ owned other := overwrites.reading? valid owned other
  operations := operations
  scripts := overwrites.scripts
  config := overwrites.config
  pins := pins
  idle _ current unreached _ kept :=
    launches_value validAfter (overwrites.isCurrent valid current unreached) kept

variable
    {capacity : Nat}
    {device : DeviceId}
    {unsupported : List OpCode}
    {faults : Method → Nat → Option DeviceError}
    {config : Config}
    {commands : List (Command α)}

/--
In every session that a run of requests leads to, new values that a leaf is given become its
content, and an update makes its content what it was, moved at every index against the
gradient there.  Either way the nodes that are reached from the leaf through users are out of
date, and no other node, no other content, no gradient and no script is different.  Of what is
known about constants and operations, nothing is forgotten but a constant that is overwritten.
-/
theorem overwriting_stays_downstream
    (reached : (start capacity device unsupported faults config).run commands = session)
    (leaf : NodeId) :
    (∀ values answer, (session.step (.setValue leaf values)).1 = .ok answer →
      session.Overwrites leaf values (session.step (.setValue leaf values)).2 ∧
      session.graph.Forgets leaf (session.step (.setValue leaf values)).2.graph) ∧
    ∀ rate answer, (session.step (.applyGradient leaf rate)).1 = .ok answer →
      ∃ content gradient values slopes moved,
        session.graph.arena.bufferOf? leaf .content = some content ∧
        session.graph.arena.bufferOf? leaf .gradient = some gradient ∧
        session.graph.store.reading? content = some values ∧
        session.graph.store.reading? gradient = some slopes ∧
        Descends rate values slopes moved ∧
        session.Overwrites leaf moved (session.step (.applyGradient leaf rate)).2 ∧
        (session.step (.applyGradient leaf rate)).2.graph.interned = session.graph.interned ∧
        (session.step (.applyGradient leaf rate)).2.graph.constants = session.graph.constants := by
  have valid : session.Valid := by
    rw [← reached]
    exact run_valid ..
  have indexed := (indexed_of_run reached).2
  constructor
  · intro values answer answered
    have ends : Ends (perform (.setValue leaf values)) session
        (fun _ after => session.graph.Overwrites leaf values after.graph ∧
          session.graph.Forgets leaf after.graph ∧ after.pins = session.pins)
        (fun _ _ => True) := by
      show Ends ((fun _ => Answer.done) <$> onGraph (Graph.setValue leaf values)) session _ _
      rw [ends_map_iff, ends_onGraph_iff]
      exact (ends_setValue_overwrites valid leaf values).mono
        (fun _ _ done => ⟨done.1, done.2, rfl⟩) fun _ _ _ => trivial
    obtain ⟨overwrites, forgets, pins⟩ := step_of_ok ends answered
    exact ⟨overwrites_of_graph valid (step_evolves valid _).valid overwrites
      (indexed.of_forgets forgets) pins, forgets⟩
  · intro rate answer answered
    have ends : Ends (perform (.applyGradient leaf rate)) session
        (fun _ after => session.graph.Descended leaf rate after.graph ∧
          after.graph.interned = session.graph.interned ∧
          after.graph.constants = session.graph.constants ∧ after.pins = session.pins)
        (fun _ _ => True) := by
      show Ends ((fun _ => Answer.done) <$> onGraph (Graph.applyGradient leaf rate)) session _ _
      rw [ends_map_iff, ends_onGraph_iff]
      exact (ends_applyGradient_descended valid leaf rate).mono
        (fun _ _ done => ⟨done.1, done.2.1, done.2.2, rfl⟩) fun _ _ _ => trivial
    obtain ⟨⟨content, gradient, values, slopes, moved, owned, ownedGradient, reads, readsGradient,
      descends, overwrites⟩, interned, constants, pins⟩ := step_of_ok ends answered
    have operations : ∀ operation,
        (session.step (.applyGradient leaf rate)).2.graph.interned[Key.operation operation]? =
          session.graph.interned[Key.operation operation]? := fun _ => by rw [interned]
    exact ⟨content, gradient, values, slopes, moved, owned, ownedGradient, reads, readsGradient,
      descends, overwrites_of_graph valid (step_evolves valid _).valid overwrites operations pins,
      interned, constants⟩

/-- The leaf of a product is overwritten, or moved twice against the gradient of the product. -/
theorem overwriting_stays_downstream_scaling :
    (onIntegers (scaling ++ [.backward ⟨2⟩])).Overwrites ⟨0⟩ #[1, 2]
        ((onIntegers (scaling ++ [.backward ⟨2⟩])).step (.setValue ⟨0⟩ #[1, 2])).2 ∧
      (onIntegers (scaling ++ [.backward ⟨2⟩])).Overwrites ⟨0⟩ #[-11, -9]
        ((onIntegers (scaling ++ [.backward ⟨2⟩])).step (.applyGradient ⟨0⟩ 2)).2 ∧
      (onIntegers (scaling ++ [.backward ⟨2⟩])).graph.arena.Reaches ⟨0⟩ ⟨2⟩ := by
  have replaced : ((onIntegers (scaling ++ [.backward ⟨2⟩])).step (.setValue ⟨0⟩ #[1, 2])).1 =
      .ok .done := by
    cbv
  have updated : ((onIntegers (scaling ++ [.backward ⟨2⟩])).step (.applyGradient ⟨0⟩ 2)).1 =
      .ok .done := by
    cbv
  have values : ((onIntegers (scaling ++ [.backward ⟨2⟩])).graph.arena.bufferOf? ⟨0⟩ .content).bind
      (onIntegers (scaling ++ [.backward ⟨2⟩])).graph.store.reading? = some #[3, 5] := by
    cbv
  have slopes : ((onIntegers (scaling ++ [.backward ⟨2⟩])).graph.arena.bufferOf? ⟨0⟩ .gradient).bind
      (onIntegers (scaling ++ [.backward ⟨2⟩])).graph.store.reading? = some #[7, 7] := by
    cbv
  obtain ⟨given, moves⟩ := overwriting_stays_downstream
    (run_eq_onIntegers (scaling ++ [.backward ⟨2⟩])) ⟨0⟩
  obtain ⟨content, gradient, before, against, moved, owned, ownedGradient, reads, readsGradient,
    descends, overwrites, -⟩ := moves 2 .done updated
  rw [owned, Option.bind_some, reads] at values
  rw [ownedGradient, Option.bind_some, readsGradient] at slopes
  cases values
  cases slopes
  obtain ⟨size, each⟩ := descends
  obtain ⟨_, ⟨⟩, first⟩ := each 0 (by decide)
  obtain ⟨_, ⟨⟩, second⟩ := each 1 (by decide)
  obtain rfl : moved = #[-11, -9] := by
    refine Array.ext_getElem? fun index => ?_
    rcases index with _ | _ | index
    · exact first
    · exact second
    · have length : moved.size = 2 := size
      rw [Array.getElem?_eq_none (by omega), Array.getElem?_eq_none]
      exact Nat.le_add_left 2 index
  have users : (onIntegers (scaling ++ [.backward ⟨2⟩])).graph.arena.users ⟨0⟩ = [⟨2⟩] := by
    cbv
  exact ⟨(given #[1, 2] .done replaced).1, overwrites,
    .single (users ▸ List.mem_singleton_self _)⟩

end Session

end Graph

end Elementwise
