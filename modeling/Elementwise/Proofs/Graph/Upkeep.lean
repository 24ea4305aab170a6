import Elementwise.Proofs.Script.Room
import Elementwise.Proofs.Gradient.Room
import Elementwise.Proofs.Graph.Standing

/-!
# The books of a graph

Whatever a graph does with its store keeps the books of the store right and
gives back every lease that it takes.  So what is leased between two requests
to a session is what the user leases.
-/

namespace Elementwise

open Store (Quota Within within_allocate within_allocateFrom within_clear within_launch
  within_read within_release within_withLease within_withLeases within_write)

variable
    {α : Type}
    {make : Make}
    {quota : Quota}

variable [Element α]

/-! ## Requests to a graph -/

namespace Graph

variable
    {β : Type}

/-- A condition on graphs that concerns neither the nodes nor what is known about them. -/
structure Unnamed (holds : Graph α → Prop) : Prop where
  arena : ∀ graph arena, holds graph → holds { graph with arena := arena }
  scripts : ∀ graph scripts, holds graph → holds { graph with scripts := scripts }
  tables : ∀ graph interned constants, holds graph →
    holds { graph with interned := interned, constants := constants }
  allocate : ∀ size, Preserves holds (onStore (Store.allocate size))
  allocateFrom : ∀ values, Preserves holds (onStore (Store.allocateFrom values))
  asks : ∀ {β : Type} {action : Store.Action α β}, Asks action → Preserves holds (onStore action)

namespace Unnamed

variable
    {holds : Graph α → Prop}
    (unnamed : Unnamed holds)

include unnamed

theorem stepwise : Stepwise holds where
  push _ _ _ := .modifyGet fun graph held => unnamed.arena graph _ held
  modifyNode _ _ _ _ := .modify fun graph held => unnamed.arena graph _ held
  allocate := unnamed.allocate
  allocateFrom := unnamed.allocateFrom
  asks := unnamed.asks
  scripts := unnamed.scripts
  interned graph _ _ held := unnamed.tables graph _ _ held

/-- Every operation keeps such a condition. -/
theorem upheld : Upheld holds where
  toSettled := unnamed.stepwise.settled
  leaf := unnamed.stepwise.leaf
  scalar := unnamed.stepwise.scalar unnamed.tables
  forgets graph _ _ held _ := unnamed.tables graph _ _ held
  invalidate graph _ held := unnamed.arena graph _ held

end Unnamed

/-- The books are right while the result of a reduction is still there. -/
theorem within_reduceLeased
    {script : Script}
    {data : List BufferId}
    {layout : AxisLayout}
    {fanIn : Nat}
    {reduction : Reduction} :
    Preserves (Within make quota)
      (Store.withLeases data do
        layout.treeReduce fanIn reduction.combine (← data.mapM Store.blockOf)
          (zeros α script.cacheSize) (fun index inputs workspace =>
            Script.evalAt script.records inputs index workspace)) :=
  within_withLeases data fun _ => .bind (.mapM data fun _ => Store.preserves_blockOf) fun _ =>
    AxisLayout.within_treeReduce

/-- The actions on the store of which operations consist keep the books of the store right. -/
theorem within_of_asks
    {action : Store.Action α β}
    (asks : Asks action) :
    Preserves (Within make quota) action := by
  cases asks with
  | read buffer => exact within_read
  | write buffer values => exact within_write values
  | clear buffer => exact within_clear
  | checkSupported script => exact script.preserves_checkSupported
  | forward script data output => exact script.within_forward data output
  | reduceScript script data layout fanIn reduction =>
    exact .bind within_reduceLeased fun _ => Store.within_take
  | descend content gradient rate =>
    exact within_withLease fun _ => within_withLease fun _ =>
      .bind Store.preserves_blockOf fun _ => .bind Store.preserves_blockOf fun _ =>
        .bind Store.preserves_find fun _ => within_launch
  | addAdjoints => exact Gradient.within_addAdjoints

/-- The books concern neither the nodes nor what is known about them. -/
theorem unnamed_within : Unnamed (OnStore (Within make quota) : Graph α → Prop) where
  arena _ _ within := within
  scripts _ _ within := within
  tables _ _ _ within := within
  allocate size := preserves_onStore_of (within_allocate size)
  allocateFrom values := preserves_onStore_of (within_allocateFrom values)
  asks asked := preserves_onStore_of (within_of_asks asked)

/-- No operation breaks the books or leaves a lease behind. -/
theorem upheld_within : Upheld (OnStore (Within make quota) : Graph α → Prop) :=
  unnamed_within.upheld

theorem within_dropStorage
    {store : Store α}
    (within : store.Within make quota)
    (node : Node) :
    (dropStorage store node).Within make quota := by
  unfold dropStorage
  split
  · exact within
  next storage _ =>
    cases storage.gradient with
    | none => exact within.drop
    | some gradient => exact within.drop.drop

theorem within_clearGraph
    {graph : Graph α}
    (within : graph.store.Within make quota) :
    graph.clear.store.Within make quota := by
  show (graph.arena.nodes.foldl dropStorage graph.store).Within make quota
  rw [← Array.foldl_toList]
  generalize graph.store = store at within
  induction graph.arena.nodes.toList generalizing store with
  | nil => exact within
  | cons node nodes step => exact step _ (within_dropStorage within node)

/-! ## Requests to a session -/

namespace Session

variable {session : Session α}

/-- The user may lease each buffer as often as there are names that stand for it. -/
def allowance (pins : Array (Option BufferId)) : Quota :=
  fun buffer _ => leases pins buffer

/-- The books are right, and only the user leases buffers. -/
def Booked (make : Make) (session : Session α) : Prop :=
  session.graph.store.Within make (allowance session.pins)

omit [Element α] in
theorem booked_request
    {action : Graph.Action α β}
    {answer : β → Answer α}
    (within : ∀ quota, Preserves (OnStore (Within make quota)) action) :
    Preserves (Booked make) (answer <$> onGraph action) := by
  intro session booked
  rw [ends_map_iff, ends_onGraph_iff]
  exact within _ session.graph booked

omit [Element α] in
theorem booked_onBuffer
    {node : NodeId}
    {part : Part}
    {action : BufferId → Store.Action α Unit}
    (within : ∀ quota buffer, Preserves (Within make quota) (action buffer)) :
    Preserves (Booked make) (onBuffer node part action) := by
  refine .bind (preserves_bufferOf node part) fun found => ?_
  split
  next buffer =>
    refine .bind (fun session booked => ?_) fun _ => .pure _
    rw [ends_onGraph_iff, ends_onStore_iff]
    exact within _ buffer session.graph.store booked
  next => exact .pure _

theorem booked_pinNext
    (node : NodeId)
    (part : Part)
    (tier : Tier) :
    Preserves (Booked make) (pinNext node part tier : Action α (Answer α)) := by
  intro session booked
  have reserves : Booked make ⟨session.graph, session.pins.push none⟩ := by
    unfold Booked allowance
    rw [leases_push_none]
    exact booked
  refine ends_pinNext_of reserves fun buffer _ => ?_
  refine (Store.ends_lease_within reserves).mono ?_ fun _ _ within => within
  rintro _ store ⟨length, within⟩
  have held : (store.hold buffer).Within make _ := within.hold
  refine held.mono fun other size => ?_
  show leases _ other + _ ≤ leases _ other
  rw [leases_set_some (getElem?_push_none _)]
  refine Nat.add_le_add_left ?_ _
  split
  next both => rw [if_pos both.1]
  next => exact Nat.zero_le _

theorem booked_endPin
    (booked : session.Booked make)
    (pin : Nat) :
    (endPin pin session).Booked make := by
  unfold endPin
  split
  next buffer stands =>
    have unpinned : (session.graph.store.unpin buffer).Within make
        (allowance (session.pins.setIfInBounds pin none)) :=
      booked.unpin_of_le fun other _ => Nat.le_of_eq (leases_set_none stands other)
    exact unpinned.drop
  · exact booked

theorem booked_perform (command : Command α) : Preserves (Booked make) (perform command) := by
  intro session booked
  by_cases operation : command.isOperation = true
  · refine (ends_operation upheld_within booked operation).mono ?_ ?_
    · rintro _ after ⟨within, pins⟩
      unfold Booked
      rwa [pins]
    · rintro _ after ⟨within, pins⟩
      unfold Booked
      rwa [pins]
  · cases command with
    | clear => exact within_clearGraph booked
    | offload target device =>
      exact booked_request (fun _ => preserves_onStore_of (Store.within_offload target device))
        session booked
    | ensure node part tier =>
      exact booked_onBuffer (fun _ _ => Store.within_ensure tier) session booked
    | release node part => exact booked_onBuffer (fun _ _ => within_release) session booked
    | pin node part tier => exact booked_pinNext node part tier session booked
    | unpin pin => exact booked_endPin booked pin
    | _ => exact absurd rfl operation

omit [Element α] in
theorem booked_start
    (capacity : Nat)
    (device : DeviceId)
    (unsupported : List OpCode)
    (faults : Method → Nat → Option DeviceError)
    (config : Config) :
    (start capacity device unsupported faults config : Session α).Booked
      ⟨device, capacity, unsupported, faults⟩ where
  accounted := Store.accounted_create
  leases _ _ claimed := nomatch claimed

/-- After any run of requests, only the user leases buffers. -/
theorem booked_run
    (booked : session.Booked make)
    (commands : List (Command α)) :
    (session.run commands).Booked make :=
  run_of_preserves (fun command _ => booked_perform command) booked

end Session

end Graph

end Elementwise
