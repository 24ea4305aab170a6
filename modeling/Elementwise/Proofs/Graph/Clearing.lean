import Elementwise.Proofs.Buffer.Shift
import Elementwise.Proofs.Graph.Holding
import Elementwise.Proofs.Graph.Simulation

/-!
# A cleared graph is like a new one

When all nodes of a graph are removed and the user leases nothing, no buffer and
no block is left, and the tables are empty.  What remains of the past are the
numbers from which the next names, stamps and handles are taken, the dead
entries of the registry, and how often each method of the accelerator was called.

None of this can be noticed: the graph and a new one are in step in everything
that is asked of them afterwards, with the names of buffers lying further on by a
fixed number.
-/

namespace Elementwise.Graph

variable
    {α β γ : Type}
    [Element α]

/-! ## The configuration -/

omit [Element α] in
theorem config_onStore
    {config : Config}
    (action : Store.Action α β) :
    Preserves (fun graph : Graph α => graph.config = config) (onStore action) := by
  intro graph same
  rw [ends_onStore_iff]
  unfold Ends
  split
  · exact same
  · exact same

/-- The configuration concerns neither the nodes nor what is known about them. -/
theorem unnamed_config (config : Config) :
    Unnamed (fun graph : Graph α => graph.config = config) where
  arena _ _ same := same
  scripts _ _ same := same
  tables _ _ _ same := same
  allocate _ := config_onStore _
  allocateFrom _ := config_onStore _
  asks _ := config_onStore _

namespace Session

variable
    {shift : Shift}
    {make makeOther : Make}

/-- Sessions of which the second one is ahead, whose leases are on the same buffers. -/
abbrev shifted (shift : Shift) (make makeOther : Make) : Coupling Error (Session α) :=
  coupling (Store.simulationOfShift shift make makeOther) fun pins others =>
    others = pins.map (Option.map shift.name)

/-! ## Requests about single buffers -/

theorem shifted_onStore
    {change : β → γ}
    {first : Store.Action α β}
    {second : Store.Action α γ}
    (simulates : (Store.shifted shift make makeOther).Simulates change first second) :
    (shifted shift make makeOther).Simulates change (onGraph (onStore first))
      (onGraph (onStore second)) := by
  have within : (Store.simulationOfShift shift make makeOther).Simulates change first second :=
    simulates
  exact simulates_onGraph (simulates_onStore within)

theorem shifted_bufferOf
    (node : NodeId)
    (part : Part) :
    (shifted shift make makeOther).Simulates (Option.map shift.name)
      (bufferOf node part : Action α (Option BufferId)) (bufferOf node part) := by
  refine .bind (simulates_onGraph (simulates_node node)) fun found => ?_
  cases part with
  | content => exact .pure found.content?_rename
  | gradient => exact .pure found.gradient?_rename

theorem shifted_onBuffer
    (node : NodeId)
    (part : Part)
    {action : BufferId → Store.Action α Unit}
    (each : ∀ buffer, (Store.shifted shift make makeOther).Simulates id (action buffer)
      (action (shift.name buffer))) :
    (shifted shift make makeOther).Simulates id (onBuffer node part action)
      (onBuffer node part action) := by
  refine .bind (shifted_bufferOf node part) fun found => ?_
  cases found with
  | none => exact .pure rfl
  | some buffer =>
    exact .bind (shifted_onStore (each buffer)) fun _ => .pure rfl

theorem shifted_pinNext
    (node : NodeId)
    (part : Part)
    (tier : Tier) :
    (shifted shift make makeOther).Simulates id (pinNext node part tier : Action α (Answer α))
      (pinNext node part tier) := by
  have reserved : (shifted shift make makeOther).Simulates id (reservePin : Action α Nat)
      reservePin := by
    refine .modifyGet ?_
    rintro left right ⟨graphs, pins⟩
    dsimp only at pins ⊢
    rw [pins]
    refine ⟨Array.size_map, graphs, ?_⟩
    dsimp only
    rw [Array.map_push]
    rfl
  refine .bind reserved fun index => .bind (shifted_bufferOf node part) fun found => ?_
  cases found with
  | none => exact .pure rfl
  | some buffer =>
    refine .bind (shifted_onStore (Store.shifted_lease buffer tier)) fun _ =>
      .bind (.modify ?_) fun _ => .pure rfl
    rintro left right ⟨⟨mirrors, ahead, accounted, accountedOther⟩, pins⟩
    refine ⟨⟨mirrors.onStores _ _, ahead.hold, accounted.hold, accountedOther.hold⟩, ?_⟩
    dsimp only at pins ⊢
    rw [pins, Array.map_setIfInBounds]
    rfl

theorem shifted_endPin
    {left right : Session α}
    (same : (shifted shift make makeOther).related left right)
    (pin : Nat) :
    (shifted shift make makeOther).related (endPin pin left) (endPin pin right) := by
  obtain ⟨⟨mirrors, ahead, accounted, accountedOther⟩, pins⟩ := same
  have there : right.pins[pin]? = (left.pins[pin]?).map (Option.map shift.name) := by
    rw [pins, Array.getElem?_map]
  unfold endPin
  rw [there]
  cases left.pins[pin]? with
  | none => exact ⟨⟨mirrors, ahead, accounted, accountedOther⟩, pins⟩
  | some held =>
    cases held with
    | none => exact ⟨⟨mirrors, ahead, accounted, accountedOther⟩, pins⟩
    | some buffer =>
      refine ⟨⟨mirrors.onStores _ _, ahead.unpin.drop, accounted.unpin.drop,
        accountedOther.unpin.drop⟩, ?_⟩
      dsimp only at pins ⊢
      rw [pins, Array.map_setIfInBounds]
      rfl

/-- Every request goes the same way on both sides. -/
theorem shifted_perform (command : Command α) :
    (shifted shift make makeOther).Simulates id (perform command) (perform command) := by
  by_cases asks : command.isOperation = true ∨ command = .clear
  · exact simulates_perform asks
  · cases command with
    | offload target device =>
      exact .map (shifted_onStore (Store.shifted_offload target device)) fun _ => rfl
    | ensure node part tier =>
      exact shifted_onBuffer node part fun buffer => Store.shifted_ensure buffer tier
    | release node part =>
      exact shifted_onBuffer node part fun buffer => Store.shifted_ensure buffer .empty
    | pin node part tier => exact shifted_pinNext node part tier
    | unpin pin =>
      exact .bind (.modify fun _ _ same => shifted_endPin same pin) fun _ => .pure rfl
    | clear => exact absurd (.inr rfl) asks
    | _ => exact absurd (.inl rfl) asks

/-! ## Runs of requests -/

/-- The replies to a run of requests. -/
def replies (session : Session α) : List (Command α) → List (Except Error (Answer α))
  | [] => []
  | command :: commands =>
      (session.step command).1 :: (session.step command).2.replies commands

/-- A reply in which buffers have other names. -/
def renameReply
    (name : BufferId → BufferId)
    (reply : Except Error (Answer α)) : Except Error (Answer α) :=
  reply.mapError (·.rename name)

variable {session other : Session α}

theorem step_of_shifted
    (same : (shifted shift make makeOther).related session other)
    (command : Command α) :
    (other.step command).1 = renameReply shift.name (session.step command).1 ∧
      (shifted shift make makeOther).related (session.step command).2 (other.step command).2 := by
  have meet := (shifted_perform command session other same).meet
  unfold step
  revert meet
  cases perform command session with
  | ok answer after =>
    cases perform command other with
    | ok answerOther afterwards =>
      rintro ⟨rfl, same⟩
      exact ⟨rfl, same⟩
    | error reason afterwards => exact fun meet => meet.elim
  | error reason after =>
    cases perform command other with
    | ok answerOther afterwards => exact fun meet => meet.elim
    | error reasonOther afterwards =>
      rintro ⟨⟨mirrors, rfl, stores⟩, pins⟩
      exact ⟨rfl, ⟨mirrors, stores⟩, pins⟩

theorem run_of_shifted
    (same : (shifted shift make makeOther).related session other)
    (commands : List (Command α)) :
    (shifted shift make makeOther).related (session.run commands) (other.run commands) := by
  induction commands generalizing session other with
  | nil => exact same
  | cons command commands rest => exact rest (step_of_shifted same command).2

theorem replies_of_shifted
    (same : (shifted shift make makeOther).related session other)
    (commands : List (Command α)) :
    other.replies commands = (session.replies commands).map (renameReply shift.name) := by
  induction commands generalizing session other with
  | nil => rfl
  | cons command commands rest =>
    obtain ⟨reply, same⟩ := step_of_shifted same command
    rw [replies, replies, reply, rest same]
    rfl

/-! ## After all nodes are removed -/

omit [Element α] in
theorem config_onBuffer
    {config : Config}
    {node : NodeId}
    {part : Part}
    {action : BufferId → Store.Action α Unit} :
    Preserves (fun session : Session α => session.graph.config = config)
      (onBuffer node part action) := by
  refine .bind (preserves_bufferOf node part) fun found => ?_
  split
  · exact .bind (preserves_onGraph (config_onStore _)) fun _ => .pure _
  · exact .pure _

/-- No request changes the configuration. -/
theorem config_perform
    {config : Config}
    (command : Command α) :
    Preserves (fun session : Session α => session.graph.config = config) (perform command) := by
  intro session same
  by_cases operation : command.isOperation = true
  · exact (ends_operation (unnamed_config config).upheld same operation).mono
      (fun _ _ kept => kept.1) fun _ _ kept => kept.1
  · cases command with
    | clear => exact same
    | offload target device =>
      exact Preserves.map (preserves_onGraph (config_onStore _)) session same
    | ensure node part tier => exact config_onBuffer session same
    | release node part => exact config_onBuffer session same
    | pin node part tier =>
      refine Preserves.bind (.modifyGet fun _ same => same) (fun index => ?_) session same
      refine .bind (preserves_bufferOf node part) fun found => ?_
      split
      · exact .pure _
      · exact .bind (preserves_onGraph (config_onStore _)) fun _ =>
          .bind (.modify fun _ same => same) fun _ => .pure _
    | unpin pin =>
      refine Preserves.bind (.modify fun session same => ?_) (fun _ => .pure _) session same
      unfold endPin
      split
      · exact same
      · exact same
    | _ => exact absurd rfl operation

/-! ## After all nodes are removed -/

/-- How many names, handles and stamps a graph has given out. -/
def spent (graph : Graph α) : Shift where
  buffers := graph.store.nextIndex
  handles := graph.store.accelerator.pool.nextHandle
  stamps := graph.store.clock

section

variable
    {capacity : Nat}
    {device : DeviceId}
    {unsupported : List OpCode}
    {faults later : Method → Nat → Option DeviceError}
    {config : Config}
    {commands : List (Command α)}

/-- A store that is empty again is ahead of a new one by what was given out. -/
theorem Kept.ahead_clear
    (kept : session.Kept ⟨device, capacity, unsupported, faults⟩)
    (unleased : session.Unleased)
    (remaining : ∀ method call,
      faults method ((session.step .clear).2.graph.store.accelerator.calls.get method + call) =
        later method call) :
    Store.Ahead (spent (session.step .clear).2.graph)
      (Store.create (Accelerator.create (Pool.create capacity device unsupported) later))
      (session.step .clear).2.graph.store where
  accelerator := by
    have made := Make.mk.inj kept.clear.booked.accounted.made
    obtain ⟨sameId, sameCapacity, sameUnsupported, sameFaults⟩ := made
    refine ⟨⟨sameId, sameCapacity, sameUnsupported, kept.used_clear unleased,
      (Nat.zero_add _).symm, fun handle => kept.block_clear unleased _⟩, fun method call => ?_⟩
    have unused : CallCounts.get {} method = 0 := by cases method <;> rfl
    show _ = later method (CallCounts.get {} method + call)
    rw [sameFaults, remaining, unused, Nat.zero_add]
  clock := (Nat.zero_add _).symm
  nextIndex := (Nat.zero_add _).symm
  buffers buffer := kept.get?_clear unleased _
  registry := by
    refine List.filter_eq_nil_iff.2 fun buffer _ => ?_
    unfold Table.contains
    rw [kept.get?_clear unleased]
    exact Bool.false_ne_true

/-- A cleared graph and a new one are in step. -/
theorem Kept.shifted_clear
    (kept : session.Kept ⟨device, capacity, unsupported, faults⟩)
    (configured : session.graph.config = config)
    (unleased : session.Unleased)
    (remaining : ∀ method call,
      faults method ((session.step .clear).2.graph.store.accelerator.calls.get method + call) =
        later method call) :
    (shifted (spent (session.step .clear).2.graph) ⟨device, capacity, unsupported, later⟩
        ⟨device, capacity, unsupported, faults⟩).related
      (start capacity device unsupported later config)
      (create (session.step .clear).2.graph) := by
  have stores := kept.ahead_clear unleased remaining
  refine ⟨⟨⟨?_, rfl, rfl, rfl, ?_⟩, stores, Store.accounted_create, ?_⟩, Array.map_empty.symm⟩
  · exact Arena.rename_empty.symm
  · exact congrArg Config.fanIn configured
  · exact kept.clear.booked.accounted

/--
After any run of requests, whatever the accelerator refused, and once the user leases nothing,
a graph from which all nodes are removed cannot be told from a new one with the same
configuration, on an accelerator of the same make that refuses what the old one would refuse
from then on; nothing, if it is one that never fails.  Each request that is made to both gets the
same reply, up to the names of buffers in errors, and in the end the two graphs have the
same nodes and tables, and the same buffers and blocks under names, handles and stamps that
lie further on by what was given out before.
-/
theorem cleared_like_new
    (reached : (start capacity device unsupported faults config).run commands = session)
    (unleased : session.Unleased)
    (remaining : ∀ method call,
      faults method ((session.step .clear).2.graph.store.accelerator.calls.get method + call) =
        later method call)
    (requests : List (Command α)) :
    (create (session.step .clear).2.graph).replies requests =
        ((start capacity device unsupported later config).replies requests).map
          (renameReply (spent (session.step .clear).2.graph).name) ∧
      ((start capacity device unsupported later config).run requests).graph.Mirrors
        (spent (session.step .clear).2.graph).name
        ((create (session.step .clear).2.graph).run requests).graph ∧
      Store.Ahead (spent (session.step .clear).2.graph)
        ((start capacity device unsupported later config).run requests).graph.store
        ((create (session.step .clear).2.graph).run requests).graph.store := by
  have kept : session.Kept ⟨device, capacity, unsupported, faults⟩ :=
    reached ▸ kept_run (kept_start ..) commands
  have configured : session.graph.config = config := by
    rw [← reached]
    exact run_of_preserves (fun command _ => config_perform command) rfl
  have same := kept.shifted_clear configured unleased remaining
  obtain ⟨⟨mirrors, ahead, -⟩, -⟩ := run_of_shifted same requests
  exact ⟨replies_of_shifted same requests, mirrors, ahead⟩

/-- Another constant is added to another leaf, which is written while it is leased. -/
def adding : List (Command Int) :=
  [.leaf ⟨[3]⟩ #[1, 2, 3] false, .scalar 7, .create .add [⟨1⟩, ⟨0⟩], .value ⟨2⟩, .gradient ⟨2⟩,
    .pin ⟨0⟩ .content .accelerator, .setValue ⟨0⟩ #[4, 5, 6]]

/-- A product is evaluated at the second attempt, after the first upload was refused. -/
def recovered : Session Int :=
  (start 8 ⟨0⟩ [] (fun method call =>
    if method = .upload ∧ call = 0 then some (.invalidBlock 0) else none) { fanIn := 2 }).run
    (scaling ++ [.value ⟨2⟩, .value ⟨2⟩, .backward ⟨2⟩, .pin ⟨0⟩ .content .host, .unpin 0])

/-- The second graph gives the nodes of the first other values, and only names buffers otherwise. -/
theorem cleared_like_new_recovered :
    recovered.Unleased ∧
    (create (recovered.step .clear).2.graph).replies adding =
      [.ok (.node ⟨0⟩), .ok (.node ⟨1⟩), .ok (.node ⟨2⟩), .ok (.values #[8, 9, 10]),
        .error (.noGradient ⟨2⟩), .ok (.named 0), .error (.bufferBusy ⟨5⟩)] := by
  have outcome : (recovered.pins, (recovered.step .clear).2.graph.store.nextIndex,
      (recovered.step .clear).2.graph.store.accelerator.calls.upload) = (#[none], 5, 3) := by
    cbv
  have replies : (start 8 ⟨0⟩ [] (fun _ _ => none) { fanIn := 2 }).replies adding =
      [.ok (.node ⟨0⟩), .ok (.node ⟨1⟩), .ok (.node ⟨2⟩), .ok (.values #[8, 9, 10]),
        .error (.noGradient ⟨2⟩), .ok (.named 0), .error (.bufferBusy ⟨0⟩)] := by
    cbv
  obtain ⟨pins, made, uploads⟩ : recovered.pins = #[none] ∧
      (recovered.step .clear).2.graph.store.nextIndex = 5 ∧
      (recovered.step .clear).2.graph.store.accelerator.calls.upload = 3 := by
    simpa only [Prod.mk.injEq] using outcome
  have unleased : recovered.Unleased := by
    unfold Unleased
    rw [pins]
    decide
  have remaining : ∀ method call,
      (if method = .upload ∧
          (recovered.step .clear).2.graph.store.accelerator.calls.get method + call = 0 then
        some (DeviceError.invalidBlock 0) else none) = none := by
    intro method call
    refine if_neg ?_
    rintro ⟨rfl, first⟩
    rw [CallCounts.get, uploads] at first
    exact absurd (Nat.add_eq_zero_iff.1 first).1 (by decide)
  have moved : (spent (recovered.step .clear).2.graph).name ⟨0⟩ = ⟨5⟩ := congrArg BufferId.mk
    (made ▸ Nat.zero_add _)
  have reached : (start 8 ⟨0⟩ [] (fun method call =>
      if method = .upload ∧ call = 0 then some (.invalidBlock 0) else none) { fanIn := 2 }).run
      (scaling ++ [.value ⟨2⟩, .value ⟨2⟩, .backward ⟨2⟩, .pin ⟨0⟩ .content .host, .unpin 0]) =
    recovered := rfl
  obtain ⟨same, -, -⟩ := cleared_like_new reached unleased remaining adding
  refine ⟨unleased, same.trans ?_⟩
  rw [replies]
  simp only [List.map_cons, List.map_nil, renameReply, Except.mapError, Error.rename, moved]

end

end Session

end Elementwise.Graph
