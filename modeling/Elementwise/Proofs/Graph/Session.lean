import Mathlib
import Elementwise.Graph.Session
import Elementwise.Proofs.Buffer.Session
import Elementwise.Proofs.Element.Integers
import Elementwise.Proofs.Graph.Ownership
import Elementwise.Proofs.Graph.Training

/-!
# What every run of a session keeps

A session is valid if its graph is, where the leases that the user holds on
each buffer are those that the session has names for.  Every request keeps a
session valid, whether it succeeds or fails, and every request that gives up
no contents keeps its graph coherent.  Both hold after any run of requests to
a new graph.
-/

namespace Elementwise.Graph

variable
    {α : Type}
    [Element α]

/-! ## A buffer changes hands -/

section

variable
    {graph : Graph α}
    {pins pinsAfter : BufferId → Nat}
    {store : Store α}

omit [Element α] in
/-- The leases on one buffer change, and the claim of its node with them. -/
theorem Valid.of_claim
    (valid : graph.Valid pins)
    (buffer : BufferId)
    (storeValid : store.Valid)
    (later : graph.store.nextIndex ≤ store.nextIndex)
    (others : ∀ other, other ≠ buffer →
      store.claim? other = graph.store.claim? other ∧ pinsAfter other = pins other)
    (claims : ∀ size, graph.store.claim? buffer = some (.held size (pins buffer)) →
      store.claim? buffer = some (.held size (pinsAfter buffer)))
    (pinned : graph.store.nextIndex ≤ buffer.index → pinsAfter buffer = 0) :
    Valid { graph with store := store } pinsAfter where
  arena := valid.arena
  store := storeValid
  pinned other fresh := by
    by_cases same : other = buffer
    · subst same
      exact pinned (Nat.le_trans later fresh)
    · rw [(others other same).2]
      exact valid.pinned other (Nat.le_trans later fresh)
  claims node part other shape size owned shaped sized := by
    have before := valid.claims node part other shape size owned shaped sized
    by_cases same : other = buffer
    · subst same
      exact claims size before
    · show store.claim? other = _
      rw [(others other same).1, (others other same).2, before]
  apart := valid.apart
  current := valid.current
  scripts := valid.scripts
  leaves := valid.leaves

/-- A graph whose nodes and readings stay the same stays coherent. -/
theorem Coherent.of_readings
    (coherent : graph.Coherent)
    (valid : graph.Valid pins)
    (validAfter : Valid { graph with store := store } pinsAfter)
    (same : ∀ node part other, graph.arena.bufferOf? node part = some other →
      store.reading? other = graph.store.reading? other) :
    Coherent { graph with store := store } :=
  coherent.of_contents valid validAfter (.refl graph.arena)
    (fun node other _ owned => same node .content other owned)
    fun _ _ _ isCurrent notBefore => absurd isCurrent notBefore

end

namespace Session

variable {session before middle after : Session α}

/-! ## Leases by name -/

/-- How many of the names stand for a lease on a buffer. -/
def leases (pins : Array (Option BufferId)) (buffer : BufferId) : Nat :=
  pins.count (some buffer)

/-- The claims on the buffers of all nodes are those of the node and of the leases. -/
def Valid (session : Session α) : Prop :=
  session.graph.Valid (leases session.pins)

section

variable
    {pins : Array (Option BufferId)}
    {index : Nat}
    {buffer : BufferId}

/-- A name that stands for nothing counts for nothing. -/
theorem leases_push_none (pins : Array (Option BufferId)) :
    leases (pins.push none) = leases pins :=
  funext (standing_push_none pins)

/-- A name that is given to a lease. -/
theorem leases_set_some
    (reserved : pins[index]? = some none)
    (buffer other : BufferId) :
    leases (pins.setIfInBounds index (some buffer)) other =
      leases pins other + if buffer = other then 1 else 0 :=
  standing_set_some reserved buffer other

/-- A name that is taken from a lease. -/
theorem leases_set_none
    (stands : pins[index]? = some (some buffer))
    (other : BufferId) :
    leases pins other =
      leases (pins.setIfInBounds index none) other + if buffer = other then 1 else 0 :=
  standing_set_none stands other

end

/-! ## What a request keeps -/

/-- Whether a request gives up the contents of a buffer. -/
def Command.givesUp : Command α → Bool
  | .ensure _ _ tier => tier == .empty
  | .release _ _ => true
  | _ => false

/-- The session stays valid and tracked, and under a condition its graph stays coherent. -/
structure Evolves (kept : Prop) (before after : Session α) : Prop where
  valid : after.Valid
  coherent : kept → before.graph.Coherent → after.graph.Coherent
  tracked : before.graph.arena.Tracked → after.graph.arena.Tracked

theorem Evolves.refl
    {kept : Prop}
    (valid : before.Valid) :
    Evolves kept before before where
  valid := valid
  coherent _ coherent := coherent
  tracked tracked := tracked

theorem Evolves.trans
    {kept laterKept : Prop}
    (first : Evolves kept before middle)
    (second : Evolves laterKept middle after) :
    Evolves (kept ∧ laterKept) before after where
  valid := second.valid
  coherent both coherent := second.coherent both.2 (first.coherent both.1 coherent)
  tracked tracked := second.tracked (first.tracked tracked)

/-- What an operation of the graph keeps, a session keeps. -/
theorem Evolves.of_keeps
    {kept : Prop}
    {graph : Graph α}
    {written : Set BufferId}
    (keeps : Keeps (leases session.pins) written session.graph graph)
    (tracked : session.graph.arena.Tracked → graph.arena.Tracked) :
    Evolves kept session { session with graph := graph } where
  valid := keeps.valid
  coherent _ coherent := keeps.coherent coherent
  tracked := tracked

/-! ## The parts of a request -/

section

variable {failed : Error → Session α → Prop}

omit [Element α] in
theorem ends_bufferOf
    {node : NodeId}
    {part : Part}
    {done : Option BufferId → Session α → Prop}
    (succeeds : done (session.graph.arena.bufferOf? node part) session)
    (fails : ∀ reason, failed reason session) :
    Ends (bufferOf node part) session done failed := by
  unfold bufferOf
  rw [ends_bind_iff, ends_onGraph_iff]
  refine ends_node ?_ fun _ => fails _
  intro found present
  cases part with
  | content =>
    rw [Arena.bufferOf?, present, Option.bind_some] at succeeds
    exact succeeds
  | gradient =>
    rw [Arena.bufferOf?, present, Option.bind_some] at succeeds
    exact succeeds

omit [Element α] in
theorem preserves_bufferOf
    {holds : Session α → Prop}
    (node : NodeId)
    (part : Part) :
    Preserves holds (bufferOf node part : Action α (Option BufferId)) :=
  fun _ held => ends_bufferOf held fun _ => held

end

/-- A request that is one operation of the graph. -/
theorem ends_request
    {β : Type}
    {kept : Prop}
    {action : Graph.Action α β}
    {answer : β → Answer α}
    (tracked : Preserves (OnArena Arena.Tracked) action)
    (ends : Ends action session.graph
      (fun _ after => ∃ written, Keeps (leases session.pins) written session.graph after)
      (fun _ after => ∃ written, Keeps (leases session.pins) written session.graph after)) :
    Ends (answer <$> onGraph action) session
      (fun _ after => Evolves kept session after) (fun _ after => Evolves kept session after) := by
  rw [ends_map_iff, ends_onGraph_iff]
  by_cases before : session.graph.arena.Tracked
  · refine (ends.and (tracked session.graph before)).mono ?_ ?_
    · rintro _ graph ⟨⟨written, keeps⟩, after⟩
      exact .of_keeps keeps fun _ => after
    · rintro _ graph ⟨⟨written, keeps⟩, after⟩
      exact .of_keeps keeps fun _ => after
  · refine ends.mono ?_ ?_
    · rintro _ graph ⟨written, keeps⟩
      exact .of_keeps keeps fun tracked => absurd tracked before
    · rintro _ graph ⟨written, keeps⟩
      exact .of_keeps keeps fun tracked => absurd tracked before

/-- An operation of the graph that writes nothing. -/
theorem ends_still
    {β : Type}
    {action : Graph.Action α β}
    {graph : Graph α}
    {pins : BufferId → Nat}
    (ends : Ends action graph (fun _ after => Keeps pins ∅ graph after)
      (fun _ after => Keeps pins ∅ graph after)) :
    Ends action graph (fun _ after => ∃ written, Keeps pins written graph after)
      (fun _ after => ∃ written, Keeps pins written graph after) :=
  ends.mono (fun _ _ keeps => ⟨∅, keeps⟩) fun _ _ keeps => ⟨∅, keeps⟩

/-- A request for one buffer of a node. -/
theorem ends_onBuffer
    {kept : Prop}
    {node : NodeId}
    {part : Part}
    {action : BufferId → Store.Action α Unit}
    (valid : session.Valid)
    (ends : ∀ buffer, session.graph.arena.bufferOf? node part = some buffer →
      Ends (action buffer) session.graph.store
        (fun _ store => Evolves kept session { session with graph.store := store })
        (fun _ store => Evolves kept session { session with graph.store := store })) :
    Ends (onBuffer node part action) session
      (fun _ after => Evolves kept session after) (fun _ after => Evolves kept session after) := by
  unfold onBuffer
  rw [ends_bind_iff]
  refine ends_bufferOf ?_ fun _ => .refl valid
  split
  next buffer owned =>
    rw [ends_bind_iff, ends_onGraph_iff, ends_onStore_iff]
    exact ends buffer owned
  · exact .refl valid

/-- A buffer of a node is moved to a tier or given up. -/
theorem ends_ensureBuffer
    (valid : session.Valid)
    (buffer : BufferId)
    (tier : Tier) :
    Ends (Store.ensure buffer tier) session.graph.store
      (fun _ store => Evolves (tier ≠ .empty) session { session with graph.store := store })
      (fun _ store => Evolves (tier ≠ .empty) session { session with graph.store := store }) := by
  by_cases empty : tier = .empty
  · subst empty
    refine (Store.ends_release valid.store).mono ?_ ?_
    · rintro _ store ⟨frame, -⟩
      exact ⟨Graph.Valid.of_frame valid frame fun _ absent => absent.elim,
        fun stored => absurd rfl stored, fun tracked => tracked⟩
    · rintro _ store frame
      exact .of_keeps (.of_frame_empty valid frame) fun tracked => tracked
  · refine (Store.ends_ensure valid.store empty).mono ?_ ?_
    · rintro _ store frame
      exact .of_keeps (.of_frame_empty valid frame) fun tracked => tracked
    · rintro _ store frame
      exact .of_keeps (.of_frame_empty valid frame) fun tracked => tracked

/-- One more lease on a buffer, and one more holder for it. -/
theorem evolves_pin
    {kept : Prop}
    {graph : Graph α}
    {pins : Array (Option BufferId)}
    {index : Nat}
    {node : NodeId}
    {part : Part}
    {buffer : BufferId}
    (valid : graph.Valid (leases pins))
    (reserved : pins[index]? = some none)
    (owned : graph.arena.bufferOf? node part = some buffer) :
    Evolves kept ⟨graph, pins⟩
      ⟨{ graph with store := (graph.store.pin buffer).hold buffer },
        pins.setIfInBounds index (some buffer)⟩ := by
  have pinned : Store.Frame {buffer} ∅ graph.store (graph.store.pin buffer) :=
    Store.frame_pin valid.store
  have held : Store.Frame {buffer} ∅ (graph.store.pin buffer)
      ((graph.store.pin buffer).hold buffer) :=
    Store.frame_hold pinned.valid
  have more := leases_set_some reserved buffer
  have validAfter : Graph.Valid { graph with store := (graph.store.pin buffer).hold buffer }
      (leases (pins.setIfInBounds index (some buffer))) := by
    refine valid.of_claim buffer held.valid (Nat.le_trans pinned.nextIndex held.nextIndex)
      (fun other different => ⟨?_, ?_⟩) (fun size claimed => ?_) fun fresh => ?_
    · exact (held.claims other different).trans (pinned.claims other different)
    · rw [more, if_neg (Ne.symm different), Nat.add_zero]
    · show ((graph.store.pin buffer).revised buffer _).claim? buffer = _
      rw [Store.claim?_revised Store.revises_hold, if_pos rfl, Store.claim?_pin, if_pos rfl,
        claimed, more, if_pos rfl]
      rfl
    · obtain ⟨size, claimed⟩ := valid.exists_claim owned
      rw [valid.store.fresh buffer fresh] at claimed
      cases claimed
  refine ⟨validAfter, fun _ coherent =>
    coherent.of_readings valid validAfter ?_, fun tracked => tracked⟩
  intro _ _ other _
  show ((graph.store.pin buffer).revised buffer _).reading? other = _
  rw [Store.reading?_revised Store.revises_hold, Store.reading?_pin]

/-- A lease takes its name first; the buffer is then leased, and held under that name. -/
theorem ends_pinNext_of
    {holds : Session α → Prop}
    {node : NodeId}
    {part : Part}
    {tier : Tier}
    (reserves : holds ⟨session.graph, session.pins.push none⟩)
    (leases : ∀ buffer, session.graph.arena.bufferOf? node part = some buffer →
      Ends (Store.lease buffer tier) session.graph.store
        (fun _ store => holds
          ⟨{ session.graph with store := store.hold buffer },
            (session.pins.push none).setIfInBounds session.pins.size (some buffer)⟩)
        (fun _ store => holds ⟨{ session.graph with store := store }, session.pins.push none⟩)) :
    Ends (pinNext node part tier) session (fun _ after => holds after)
      fun _ after => holds after := by
  unfold pinNext
  rw [ends_bind_iff, reservePin, ends_modifyGet_iff, ends_bind_iff]
  refine ends_bufferOf ?_ fun _ => reserves
  split
  · exact reserves
  next buffer owned =>
    rw [ends_bind_iff, ends_onGraph_iff, ends_onStore_iff]
    exact leases buffer owned

/-- The name that a lease takes stands for nothing yet. -/
theorem getElem?_push_none (pins : Array (Option BufferId)) :
    (pins.push none)[pins.size]? = some none :=
  Array.getElem?_push_size

/-- A lease under a new name. -/
theorem ends_pinNext
    {kept : Prop}
    (valid : session.Valid)
    (node : NodeId)
    (part : Part)
    (tier : Tier) :
    Ends (pinNext node part tier) session
      (fun _ after => Evolves kept session after) (fun _ after => Evolves kept session after) := by
  have reserves : Evolves kept session ⟨session.graph, session.pins.push none⟩ := by
    refine ⟨?_, fun _ coherent => coherent, fun tracked => tracked⟩
    rw [Valid, leases_push_none]
    exact valid
  refine ends_pinNext_of reserves fun buffer owned => ?_
  refine (Store.ends_lease reserves.valid.store).mono ?_ ?_
  · rintro _ _ ⟨store, frame, -, rfl⟩
    have keeps := Keeps.of_frame_empty reserves.valid frame
    have pins : Evolves kept ⟨{ session.graph with store := store }, session.pins.push none⟩ _ :=
      evolves_pin keeps.valid (getElem?_push_none _) owned
    exact ⟨pins.valid, fun keep coherent => pins.coherent keep (keeps.coherent coherent),
      pins.tracked⟩
  · rintro _ store frame
    have keeps := Keeps.of_frame_empty reserves.valid frame
    exact ⟨keeps.valid, fun _ coherent => keeps.coherent coherent, fun tracked => tracked⟩

/-- A buffer that a node still holds outlives a lease on it. -/
theorem unleased_of_held
    {store : Store α}
    {buffer : BufferId}
    {size leases : Nat}
    (valid : store.Valid)
    (claimed : store.claim? buffer = some (.held size (leases + 1))) :
    ((store.unpin buffer).drop buffer).claim? buffer = some (.held size leases) ∧
      ((store.unpin buffer).drop buffer).reading? buffer = store.reading? buffer := by
  obtain ⟨unpins, first⟩ := Store.frame_unpin valid claimed
  rw [if_pos (.inl (Nat.succ_pos _))] at first
  have second := (Store.frame_drop unpins.valid first).2
  rw [if_pos (.inl (Nat.succ_pos _))] at second
  refine ⟨second, ?_⟩
  have readsFirst := (Store.contents?_reclaim Store.revises_unpin claimed
    (.inl (Nat.succ_pos _))).2
  have readsSecond := (Store.contents?_reclaim Store.revises_drop first
    (.inl (Nat.succ_pos _))).2
  exact (congrFun readsSecond buffer).trans (congrFun readsFirst buffer)

/-- The end of a lease changes no reading of a buffer of a node. -/
theorem reading?_endPin
    (valid : session.Valid)
    (pin : Nat)
    {node : NodeId}
    {part : Part}
    {other : BufferId}
    (owned : session.graph.arena.bufferOf? node part = some other) :
    (endPin pin session).graph.store.reading? other = session.graph.store.reading? other := by
  unfold endPin
  split
  next buffer stands =>
    have unpins : Store.Frame {buffer} ∅ session.graph.store (session.graph.store.unpin buffer) :=
      Store.frame_reclaim_only valid.store Store.revises_unpin
    have drops : Store.Frame {buffer} ∅ (session.graph.store.unpin buffer)
        ((session.graph.store.unpin buffer).drop buffer) :=
      Store.frame_reclaim_only unpins.valid Store.revises_drop
    obtain ⟨size, claimed⟩ := Linked.exists_claim valid.toLinked owned
    by_cases same : other = buffer
    · subst same
      rw [leases_set_none stands, if_pos rfl] at claimed
      exact (unleased_of_held valid.store claimed).2
    · exact (drops.readings other same (Set.notMem_empty _)).trans
        (unpins.readings other same (Set.notMem_empty _))
  · rfl

/-- A buffer of a node stays where it is when a lease on it ends. -/
theorem evolves_endPin
    {kept : Prop}
    (valid : session.Valid)
    (pin : Nat) :
    Evolves kept session (endPin pin session) := by
  have readings : ∀ node part other, session.graph.arena.bufferOf? node part = some other →
      (endPin pin session).graph.store.reading? other = session.graph.store.reading? other :=
    fun _ _ _ owned => reading?_endPin valid pin owned
  unfold endPin at readings ⊢
  split
  next buffer stands =>
    rw [stands] at readings
    have fewer := leases_set_none stands
    have unpins : Store.Frame {buffer} ∅ session.graph.store (session.graph.store.unpin buffer) :=
      Store.frame_reclaim_only valid.store Store.revises_unpin
    have drops : Store.Frame {buffer} ∅ (session.graph.store.unpin buffer)
        ((session.graph.store.unpin buffer).drop buffer) :=
      Store.frame_reclaim_only unpins.valid Store.revises_drop
    have validAfter : Graph.Valid
        { session.graph with store := (session.graph.store.unpin buffer).drop buffer }
        (leases (session.pins.setIfInBounds pin none)) := by
      refine Graph.Valid.of_claim valid buffer drops.valid
        (Nat.le_trans unpins.nextIndex drops.nextIndex)
        (fun other different => ⟨?_, ?_⟩) (fun size claimed => ?_) ?_
      · exact (drops.claims other different).trans (unpins.claims other different)
      · rw [fewer, if_neg (Ne.symm different), Nat.add_zero]
      · rw [fewer, if_pos rfl] at claimed
        exact (unleased_of_held valid.store claimed).1
      · intro fresh
        have none := valid.pinned buffer fresh
        rw [fewer, if_pos rfl] at none
        cases none
    exact ⟨validAfter, fun _ coherent => coherent.of_readings valid validAfter readings,
      fun tracked => tracked⟩
  · exact .refl valid

/-! ## Runs of requests -/

/-- Every request keeps the session valid, and most requests keep its graph coherent. -/
theorem ends_perform (valid : session.Valid) (command : Command α) :
    Ends (perform command) session
      (fun _ after => Evolves (command.givesUp = false) session after)
      (fun _ after => Evolves (command.givesUp = false) session after) := by
  cases command with
  | leaf shape values trainable =>
    exact ends_request (upheld_tracked.leaf shape values trainable)
      (ends_still (ends_leaf valid shape values trainable))
  | scalar value =>
    exact ends_request (upheld_tracked.scalar value) (ends_still (ends_scalar valid value))
  | create opcode operands =>
    exact ends_request (upheld_tracked.create opcode operands)
      (ends_still (ends_create valid opcode operands))
  | chain opcode count node =>
    exact ends_request (upheld_tracked.chain opcode count node)
      (ends_still (ends_chain valid opcode count node))
  | markOutput node =>
    exact ends_request (upheld_tracked.markOutput node) (ends_still
      ((ends_markOutput valid node).mono (fun _ _ done => done.1) fun _ _ keeps => keeps))
  | script node =>
    exact ends_request upheld_tracked.script (ends_still
      ((ends_script valid node).mono (fun _ _ done => done.1) fun _ _ same =>
        same.symm ▸ .refl valid))
  | compile node =>
    exact ends_request upheld_tracked.compile (ends_still
      ((ends_compile valid node).mono (fun _ _ done => done.1) fun _ _ failed =>
        failed.1.symm ▸ .refl valid))
  | value node =>
    exact ends_request upheld_tracked.value
      ((ends_value valid node).mono (fun _ _ done => done.1) fun _ _ keeps => keeps)
  | valueAt node index =>
    exact ends_request (upheld_tracked.valueAt index)
      ((ends_valueAt valid node index).mono (fun _ _ done => done.1) fun _ _ keeps => keeps)
  | gradient node =>
    exact ends_request upheld_tracked.gradient (ends_still
      ((ends_gradient valid node).mono (fun _ _ done => done.1) fun _ _ keeps => keeps))
  | backward node =>
    refine ends_request upheld_tracked.backward ((ends_backward valid node).mono ?_
      fun _ _ fails => fails.keeps valid)
    rintro _ after ⟨marked, outcome, backpropagates⟩
    obtain ⟨first, -⟩ := (ends_markOutput valid node).of_ok outcome
    exact ⟨_, first.trans backpropagates.keeps⟩
  | applyGradient node rate =>
    exact ends_request (upheld_tracked.applyGradient rate) (ends_applyGradient valid node rate)
  | zeroGradient node =>
    refine ends_request upheld_tracked.zeroGradient ((ends_zeroGradient valid node).mono ?_
      fun _ _ keeps => ⟨∅, keeps⟩)
    rintro _ after ⟨buffer, -, keeps⟩
    exact ⟨{buffer}, keeps⟩
  | setValue node values =>
    exact ends_request (upheld_tracked.setValue values) (ends_setValue valid node values)
  | reduce node axis reduction =>
    exact ends_request (upheld_tracked.reduce axis reduction)
      (ends_still (ends_reduce valid node axis reduction))
  | clear => exact ⟨valid_clear valid, fun _ _ => coherent_empty rfl, fun _ => Arena.tracked_empty⟩
  | offload target device =>
    refine ends_request (preserves_onStore _) ?_
    rw [ends_onStore_iff]
    refine (Store.ends_offload valid.store target device).mono ?_ fun _ _ never => never.elim
    rintro _ store ⟨frame, -⟩
    exact ⟨∅, .of_frame_empty valid frame⟩
  | ensure node part tier =>
    refine ends_onBuffer valid fun buffer _ => ?_
    have same : (Command.ensure node part tier : Command α).givesUp = false ↔ tier ≠ .empty := by
      simp [Command.givesUp]
    rw [same]
    exact ends_ensureBuffer valid buffer tier
  | release node part =>
    refine ends_onBuffer valid fun buffer _ => ?_
    refine (ends_ensureBuffer valid buffer .empty).mono ?_ ?_
    · exact fun _ _ evolves => ⟨evolves.valid, nofun, evolves.tracked⟩
    · exact fun _ _ evolves => ⟨evolves.valid, nofun, evolves.tracked⟩
  | pin node part tier => exact ends_pinNext valid node part tier
  | unpin pin =>
    show Ends (do modify (endPin pin); return _) session _ _
    rw [ends_bind_iff, ends_modify_iff]
    exact evolves_endPin valid pin

/-! ## Steps -/

section

variable
    {command : Command α}
    {done : Answer α → Session α → Prop}
    {failed : Error → Session α → Prop}

/-- What holds after a request that was answered. -/
theorem step_of_ok
    {answer : Answer α}
    (ends : Ends (perform command) session done failed)
    (answered : (session.step command).1 = .ok answer) :
    done answer (session.step command).2 := by
  unfold Ends at ends
  unfold step at answered ⊢
  split at ends
  next outcome =>
    rw [outcome] at answered ⊢
    cases answered
    exact ends
  next outcome =>
    rw [outcome] at answered
    cases answered

/-- What holds after a request that was refused. -/
theorem step_of_error
    {reason : Error}
    (ends : Ends (perform command) session done failed)
    (refused : (session.step command).1 = .error reason) :
    failed reason (session.step command).2 := by
  unfold Ends at ends
  unfold step at refused ⊢
  split at ends
  next outcome =>
    rw [outcome] at refused
    cases refused
  next outcome =>
    rw [outcome] at refused ⊢
    cases refused
    exact ends

/-- What holds after a request that cannot fail. -/
theorem step_eq_ok
    (ends : Ends (perform command) session done fun _ _ => False) :
    ∃ answer, (session.step command).1 = .ok answer ∧ done answer (session.step command).2 := by
  cases outcome : (session.step command).1 with
  | ok answer => exact ⟨answer, rfl, step_of_ok ends outcome⟩
  | error reason => exact (step_of_error ends outcome).elim

/-- What a request leads to in any case holds after a step. -/
theorem step_of_ends
    {holds : Session α → Prop}
    (ends : Ends (perform command) session (fun _ after => holds after)
      fun _ after => holds after) :
    holds (session.step command).2 := by
  cases outcome : (session.step command).1 with
  | ok answer => exact step_of_ok ends outcome
  | error reason => exact step_of_error ends outcome

end

/-! ## Runs -/

theorem run_append
    (session : Session α)
    (first rest : List (Command α)) :
    session.run (first ++ rest) = (session.run first).run rest :=
  List.foldl_append ..

/-- What every request of a run keeps holds after the run. -/
theorem run_of_preserves
    {holds : Session α → Prop}
    {commands : List (Command α)}
    (each : ∀ command ∈ commands, Preserves holds (perform command))
    (held : holds session) :
    holds (session.run commands) := by
  induction commands generalizing session with
  | nil => exact held
  | cons command commands rest =>
    refine rest (fun other member => each other (List.mem_cons_of_mem _ member)) ?_
    exact step_of_ends (each command List.mem_cons_self session held)

theorem step_evolves (valid : session.Valid) (command : Command α) :
    Evolves (command.givesUp = false) session (session.step command).2 :=
  step_of_ends (ends_perform valid command)

theorem run_evolves (valid : session.Valid) (commands : List (Command α)) :
    Evolves (∀ command ∈ commands, command.givesUp = false) session (session.run commands) := by
  induction commands generalizing session with
  | nil => exact .refl valid
  | cons command commands rest =>
    have first := step_evolves valid command
    have both := first.trans (rest first.valid)
    refine ⟨both.valid, fun kept => both.coherent ⟨?_, ?_⟩, both.tracked⟩
    · exact kept command List.mem_cons_self
    · exact fun other member => kept other (List.mem_cons_of_mem _ member)

/-- A session on a new graph, on an accelerator that nobody has used yet. -/
def start
    (capacity : Nat)
    (device : DeviceId)
    (unsupported : List OpCode)
    (faults : Method → Nat → Option DeviceError)
    (config : Config) : Session α :=
  create (onAccelerator (Accelerator.create
    (Pool.create capacity device unsupported) faults) config)

section

variable
    (capacity : Nat)
    (device : DeviceId)
    (unsupported : List OpCode)
    (faults : Method → Nat → Option DeviceError)
    (config : Config)

omit [Element α] in
theorem start_valid :
    (start capacity device unsupported faults config : Session α).Valid :=
  valid_empty (Store.valid_create (Pool.named_create capacity device unsupported))
    (fun _ _ => rfl) rfl rfl

/-- A valid session, whatever was asked of it before. -/
theorem run_valid (commands : List (Command α)) :
    ((start capacity device unsupported faults config).run commands).Valid :=
  (run_evolves (start_valid ..) commands).valid

/-- A node owns a gradient just if it is needed on a leaf or an output. -/
theorem run_tracked (commands : List (Command α)) :
    ((start capacity device unsupported faults config).run commands).graph.arena.Tracked :=
  (run_evolves (start_valid ..) commands).tracked Arena.tracked_empty

/-- The contents that are up to date are right if none was given up. -/
theorem run_coherent
    (commands : List (Command α))
    (kept : ∀ command ∈ commands, command.givesUp = false) :
    ((start capacity device unsupported faults config).run commands).graph.Coherent :=
  (run_evolves (start_valid ..) commands).coherent kept (coherent_empty rfl)

end

/-! ## What a session answers -/

section

variable
    {capacity : Nat}
    {device : DeviceId}
    {unsupported : List OpCode}
    {faults : Method → Nat → Option DeviceError}
    {config : Config}
    {commands : List (Command α)}

/--
In every session that a run of requests leads to, every node compiles.  Its script is
valid and computes its value at every coordinate, whatever the workspace holds.  The
script of a leaf is a copy, and computes its value if copying passes values on.
-/
theorem compile_correct
    (reached : (start capacity device unsupported faults config).run commands = session)
    {output : NodeId}
    (inside : output.index < session.graph.arena.size) :
    ∃ script shape size,
      (session.step (.compile output)).1 = .ok (.script script) ∧
      script.validate = .ok () ∧
      session.graph.arena.shape? output = some shape ∧ shape.size = .ok size ∧
      ∀ coordinate < size, ∀ workspace : Array α, script.cacheSize ≤ workspace.size →
        ∃ value rest,
          Script.evalAt script.records (script.data.map session.graph.reading).toArray coordinate
            workspace = .ok (value, rest) ∧
          (session.graph.arena.operation? output = some .leaf →
            value = Arithmetic.eval .copy (session.graph.elementOf output coordinate)
              Arithmetic.zero) ∧
          (session.graph.arena.operation? output ≠ some .leaf ∨
              (∀ left right : α, Arithmetic.eval .copy left right = left) →
            value = session.graph.elementOf output coordinate) := by
  have valid : session.Valid := by
    rw [← reached]
    exact run_valid ..
  obtain ⟨shape, size, shaped, sized⟩ := Linked.exists_size valid.toLinked inside
  have compiles : Ends (perform (.compile output)) session
      (fun answer _ => ∃ script, answer = .script script ∧
        Script.Compiled session.graph.arena output script)
      (fun _ _ => False) := by
    show Ends (Answer.script <$> onGraph (Graph.compile output)) session _ _
    rw [ends_map_iff, ends_onGraph_iff]
    refine (ends_compile valid output).mono ?_ ?_
    · rintro script _ ⟨-, -, -, -, -, compiled⟩
      exact ⟨script, rfl, compiled⟩
    · rintro _ _ ⟨-, outside⟩
      exact absurd inside (Nat.not_lt_of_le outside)
  obtain ⟨_, answered, script, rfl, compiled⟩ := step_eq_ok compiles
  refine ⟨script, shape, size, answered, compiled.validate valid.arena.proper, shaped, sized, ?_⟩
  intro coordinate below workspace enough
  obtain ⟨rest, -, evaluates⟩ := evalAt_reading valid compiled shaped sized below enough
  refine ⟨_, rest, evaluates, fun isLeaf => ?_, fun copies => ?_⟩
  · rw [Script.outputElement, if_pos isLeaf, elementOf]
  · exact Script.outputElement_eq_elementOf fun isLeaf => copies.resolve_left (not_not_intro isLeaf)

/-- A session on integers after a run of requests, on a small accelerator that never fails. -/
def onIntegers (commands : List (Command Int)) : Session Int :=
  (start 8 ⟨0⟩ [] (fun _ _ => none) { fanIn := 2 }).run commands

theorem run_eq_onIntegers (commands : List (Command Int)) :
    (start 8 ⟨0⟩ [] (fun _ _ => none) { fanIn := 2 }).run commands = onIntegers commands := rfl

/-- A leaf of two elements is multiplied by a constant. -/
def scaling : List (Command Int) :=
  [.leaf ⟨[2]⟩ #[3, 5] true, .scalar 7, .create .mul [⟨0⟩, ⟨1⟩]]

/-- The script of the product computes three and five times seven. -/
theorem compile_correct_scaling :
    ∃ script, ((onIntegers scaling).step (.compile ⟨2⟩)).1 = .ok (.script script) ∧
      script.validate = .ok () ∧
      ∀ coordinate < 2, ∀ workspace : Array Int, script.cacheSize ≤ workspace.size →
        ∃ rest, Script.evalAt script.records
          (script.data.map (onIntegers scaling).graph.reading).toArray coordinate workspace =
            .ok (#[21, 35].getD coordinate 0, rest) := by
  have inside : (⟨2⟩ : NodeId).index < (onIntegers scaling).graph.arena.size := by
    decide +kernel
  have product : (onIntegers scaling).graph.arena.operation? ⟨2⟩ = some (.binary .mul ⟨0⟩ ⟨1⟩) := by
    decide +kernel
  have values : (onIntegers scaling).graph.meaning ⟨2⟩ 2 = #[21, 35] := by
    cbv
  obtain ⟨script, shape, size, compiles, validates, shaped, sized, evaluates⟩ :=
    compile_correct (run_eq_onIntegers scaling) inside
  obtain rfl : shape = ⟨[2]⟩ := by
    have known : (onIntegers scaling).graph.arena.shape? ⟨2⟩ = some ⟨[2]⟩ := by decide +kernel
    rw [known] at shaped
    exact (Option.some.inj shaped).symm
  obtain rfl : 2 = size := Except.ok.inj sized
  refine ⟨script, compiles, validates, ?_⟩
  intro coordinate below workspace enough
  obtain ⟨value, rest, evaluated, -, computed⟩ := evaluates coordinate below workspace enough
  refine ⟨rest, ?_⟩
  rw [evaluated, computed (.inl (by rw [product]; rintro ⟨⟩)), ← values, meaning,
    Array.getD_eq_getD_getElem?, Array.getElem?_eq_getElem (by simpa using below),
    Array.getElem_ofFn, Option.getD_some]

/-- What is answered as the value of a node in a coherent graph is its value. -/
theorem value_answered
    (valid : session.Valid)
    (coherent : session.graph.Coherent)
    {node : NodeId}
    {values : Array α}
    (answered : (session.step (.value node)).1 = .ok (.values values)) :
    ∃ shape size, session.graph.arena.shape? node = some shape ∧ shape.size = .ok size ∧
      values = session.graph.meaning node size := by
  have answers : Ends (perform (.value node)) session
      (fun answer _ => ∀ values, answer = .values values → session.graph.Answers node values)
      (fun _ _ => True) := by
    show Ends (Answer.values <$> onGraph (Graph.value node)) session _ _
    rw [ends_map_iff, ends_onGraph_iff]
    refine (ends_value valid node).mono ?_ fun _ _ _ => trivial
    rintro values _ ⟨-, answers⟩ _ ⟨⟩
    exact answers
  obtain ⟨shape, size, shaped, sized, equal⟩ := step_of_ok answers answered values rfl
  exact ⟨shape, size, shaped, sized, equal coherent⟩

/--
In every session that a run of requests leads to, if none of them gave up contents, every
node that counts as up to date has a content buffer that reads as its value, and every
value that is answered is the value of its node.
-/
theorem current_correct
    (reached : (start capacity device unsupported faults config).run commands = session)
    (kept : ∀ command ∈ commands, command.givesUp = false) :
    (∀ node found, session.graph.arena.node? node = some found → found.isCurrent = true →
      ∃ buffer size, found.content? = some buffer ∧ found.shape.size = .ok size ∧
        session.graph.store.reading? buffer = some (session.graph.meaning node size)) ∧
    (∀ node values, (session.step (.value node)).1 = .ok (.values values) →
      ∃ shape size, session.graph.arena.shape? node = some shape ∧ shape.size = .ok size ∧
        values = session.graph.meaning node size) ∧
    ∀ node index value, (session.step (.valueAt node index)).1 = .ok (.value value) →
      ∃ shape flat, session.graph.arena.shape? node = some shape ∧
        shape.flatten index = .ok flat ∧ value = session.graph.elementOf node flat := by
  have valid : session.Valid := by
    rw [← reached]
    exact run_valid ..
  have coherent : session.graph.Coherent := by
    rw [← reached]
    exact run_coherent _ _ _ _ _ commands kept
  refine ⟨?_, ?_, ?_⟩
  · intro node found present upToDate
    have isCurrent : session.graph.arena.IsCurrent node := ⟨found, present, upToDate⟩
    have shaped : session.graph.arena.shape? node = some found.shape := by
      rw [Arena.shape?, present, Option.map_some]
    obtain ⟨size, sized⟩ := valid.arena.sized node found.shape shaped
    obtain ⟨buffer, owned⟩ := valid.current node isCurrent
    obtain ⟨values, reads, -⟩ := Linked.exists_reading valid.toLinked owned shaped sized
    refine ⟨buffer, size, ?_, sized, ?_⟩
    · rw [Arena.bufferOf?, present, Option.bind_some] at owned
      exact owned
    · rw [reads, ← reading_of_bufferOf? owned reads, coherent node found.shape size isCurrent
        shaped sized]
  · exact fun node values answered => value_answered valid coherent answered
  · intro node index value answered
    have answers : Ends (perform (.valueAt node index)) session
        (fun answer _ => ∀ value, answer = .value value →
          ∃ shape flat values, session.graph.arena.shape? node = some shape ∧
            shape.flatten index = .ok flat ∧ values[flat]? = some value ∧
            session.graph.Answers node values)
        (fun _ _ => True) := by
      show Ends (Answer.value <$> onGraph (Graph.valueAt node index)) session _ _
      rw [ends_map_iff, ends_onGraph_iff]
      refine (ends_valueAt valid node index).mono ?_ fun _ _ _ => trivial
      rintro value _ ⟨-, answers⟩ _ ⟨⟩
      exact answers
    obtain ⟨shape, flat, values, shaped, flattened, element, _, size, _, _, equal⟩ :=
      step_of_ok answers answered value rfl
    refine ⟨shape, flat, shaped, flattened, ?_⟩
    rw [equal coherent, meaning, Array.getElem?_eq_some_iff] at element
    obtain ⟨_, found⟩ := element
    rw [← found, Array.getElem_ofFn]

/-- The values that are answered are those of the leaf after one of its elements was replaced. -/
theorem current_correct_scaling :
    ((onIntegers (scaling ++ [.value ⟨2⟩, .setValue ⟨0⟩ #[3, 6]])).step (.value ⟨2⟩)).1 =
        .ok (.values #[21, 42]) ∧
      #[21, 42] =
        (onIntegers (scaling ++ [.value ⟨2⟩, .setValue ⟨0⟩ #[3, 6]])).graph.meaning ⟨2⟩ 2 := by
  have answered :
      ((onIntegers (scaling ++ [.value ⟨2⟩, .setValue ⟨0⟩ #[3, 6]])).step (.value ⟨2⟩)).1 =
        .ok (.values #[21, 42]) := by
    cbv
  obtain ⟨-, values, -⟩ :=
    current_correct (run_eq_onIntegers (scaling ++ [.value ⟨2⟩, .setValue ⟨0⟩ #[3, 6]]))
      (by decide)
  obtain ⟨shape, size, -, -, equal⟩ := values ⟨2⟩ #[21, 42] answered
  obtain rfl : 2 = size := (congrArg Array.size equal).trans (size_meaning ..)
  exact ⟨answered, equal⟩

end

end Session

end Elementwise.Graph
