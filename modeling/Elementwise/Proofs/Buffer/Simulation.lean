import Elementwise.Proofs.Simulation
import Elementwise.Proofs.Buffer.Access

/-!
# Stores in step

Two stores may call the same buffers by different names.  A simulation says
which stores belong together and promises for each access, each allocation and
each launch that its runs on both stores are in step.  That runs with any number
of leases and spare buffers are in step then follows once and for all.

The blocks behind a buffer may differ between two stores, so launches are
compared by the buffers whose blocks they read and write.
-/

namespace Elementwise

/-! ## Buffers in errors -/

namespace Error

/-- The same error about a buffer under another name. -/
def rename (name : BufferId → BufferId) : Error → Error
  | bufferBusy buffer => bufferBusy (name buffer)
  | inconsistency (.emptyLease buffer) => inconsistency (.emptyLease (name buffer))
  | inconsistency (.missingBuffer buffer) => inconsistency (.missingBuffer (name buffer))
  | reason => reason

end Error

/-- A computation does not fail for the sake of a buffer. -/
def Nameless {α : Type} (result : Except Error α) : Prop :=
  ∀ reason, result = .error reason → ∀ name, reason.rename name = reason

section

variable {α β : Type}

theorem nameless_ok {answer : α} : Nameless (.ok answer) := by
  rintro _ ⟨⟩

theorem nameless_error
    {reason : Error}
    (same : ∀ name, reason.rename name = reason) :
    Nameless (.error reason : Except Error α) := by
  rintro _ ⟨⟩
  exact same

theorem nameless_bind
    {first : Except Error α}
    {next : α → Except Error β}
    (here : Nameless first)
    (there : ∀ answer, Nameless (next answer)) :
    Nameless (first >>= next) := by
  cases first with
  | ok answer => exact there answer
  | error reason => exact nameless_error (here reason rfl)

theorem nameless_lift (result : Except Fault α) : Nameless (Size.lift result) := by
  cases result with
  | ok answer => exact nameless_ok
  | error reason => exact nameless_error fun _ => rfl

end

namespace Store

variable
    {α β γ : Type}
    [Arithmetic α]
    {left right : Store α}
    {buffer : BufferId}

/-! ## Tidying up -/

omit [Arithmetic α] in
theorem followedBy_eq_ok
    {action : Action α β}
    {change : Store α → Store α}
    {store after : Store α}
    {answer : β}
    (ran : action.followedBy change store = .ok answer after) :
    ∃ middle, action store = .ok answer middle ∧ change middle = after := by
  unfold Action.followedBy at ran
  split at ran
  next outcome =>
    cases ran
    exact ⟨_, outcome, rfl⟩
  · cases ran

omit [Arithmetic α] in
theorem followedBy_eq_error
    {action : Action α β}
    {change : Store α → Store α}
    {store after : Store α}
    {reason : Error}
    (ran : action.followedBy change store = .error reason after) :
    ∃ middle, action store = .error reason middle ∧ change middle = after := by
  unfold Action.followedBy at ran
  split at ran
  · cases ran
  next outcome =>
    cases ran
    exact ⟨_, outcome, rfl⟩

omit [Arithmetic α] in
theorem unlessDone_eq_ok
    {action : Action α β}
    {change : Store α → Store α}
    {store after : Store α}
    {answer : β}
    (ran : action.unlessDone change store = .ok answer after) :
    action store = .ok answer after := by
  unfold Action.unlessDone at ran
  split at ran
  next outcome =>
    cases ran
    exact outcome
  · cases ran

omit [Arithmetic α] in
theorem unlessDone_eq_error
    {action : Action α β}
    {change : Store α → Store α}
    {store after : Store α}
    {reason : Error}
    (ran : action.unlessDone change store = .error reason after) :
    ∃ middle, action store = .error reason middle ∧ change middle = after := by
  unfold Action.unlessDone at ran
  split at ran
  · cases ran
  next outcome =>
    cases ran
    exact ⟨_, outcome, rfl⟩

section

variable
    {coupling : Coupling Error (Store α)}
    {change : β → γ}
    {first : Action α β}
    {second : Action α γ}
    {tidy tidyOther : Store α → Store α}
    (agrees : coupling.Agrees change first second left right)
    (keptFailed : ∀ {reason other left right}, coupling.failed reason other left right →
      coupling.failed reason other (tidy left) (tidyOther right))

include agrees keptFailed

omit [Arithmetic α] in
theorem agrees_followedBy
    (kept : ∀ {left right}, coupling.related left right →
      coupling.related (tidy left) (tidyOther right)) :
    coupling.Agrees change (first.followedBy tidy) (second.followedBy tidyOther) left
      right where
  answers answer other _ _ ran ranOther := by
    obtain ⟨middle, here, rfl⟩ := followedBy_eq_ok ran
    obtain ⟨middleOther, hereOther, rfl⟩ := followedBy_eq_ok ranOther
    obtain ⟨paired, same⟩ := agrees.answers _ _ _ _ here hereOther
    exact ⟨paired, kept same⟩
  reasons _ _ _ _ ran ranOther := by
    obtain ⟨middle, here, rfl⟩ := followedBy_eq_error ran
    obtain ⟨middleOther, hereOther, rfl⟩ := followedBy_eq_error ranOther
    exact (agrees.reasons _ _ _ _ here hereOther).imp_right keptFailed
  ahead _ _ _ _ ran ranOther := by
    obtain ⟨_, here, -⟩ := followedBy_eq_ok ran
    obtain ⟨_, hereOther, -⟩ := followedBy_eq_error ranOther
    exact agrees.ahead _ _ _ _ here hereOther
  behind _ _ _ _ ran ranOther := by
    obtain ⟨_, here, -⟩ := followedBy_eq_error ran
    obtain ⟨_, hereOther, -⟩ := followedBy_eq_ok ranOther
    exact agrees.behind _ _ _ _ here hereOther

omit [Arithmetic α] in
theorem agrees_unlessDone :
    coupling.Agrees change (first.unlessDone tidy) (second.unlessDone tidyOther) left
      right where
  answers _ _ _ _ ran ranOther :=
    agrees.answers _ _ _ _ (unlessDone_eq_ok ran) (unlessDone_eq_ok ranOther)
  reasons _ _ _ _ ran ranOther := by
    obtain ⟨middle, here, rfl⟩ := unlessDone_eq_error ran
    obtain ⟨middleOther, hereOther, rfl⟩ := unlessDone_eq_error ranOther
    exact (agrees.reasons _ _ _ _ here hereOther).imp_right keptFailed
  ahead _ _ _ _ ran ranOther := by
    obtain ⟨_, hereOther, -⟩ := unlessDone_eq_error ranOther
    exact agrees.ahead _ _ _ _ (unlessDone_eq_ok ran) hereOther
  behind _ _ _ _ ran ranOther := by
    obtain ⟨_, here, -⟩ := unlessDone_eq_error ran
    exact agrees.behind _ _ _ _ here (unlessDone_eq_ok ranOther)

end

/-! ## Simulations -/

/-- Blocks are behind buffers, one by one. -/
abbrev Behind (store : Store α) : List BufferId → List Block → Prop :=
  List.Forall₂ fun buffer block => store.contents? buffer = some (.device block)

/--
What makes two stores simulate each other: which of them belong together, how the buffers of the
first one are called in the second one, and that the steps of all actions lead from stores that
belong together to such stores.
-/
structure Simulation (α : Type) [Arithmetic α] extends Coupling Error (Store α) where
  name : BufferId → BufferId
  /-- Buffers are leased in the same order. -/
  lt_iff : ∀ {buffer other}, (name buffer).index < (name other).index ↔ buffer.index < other.index
  valid : ∀ {left right}, related left right → left.Valid
  validOther : ∀ {left right}, related left right → right.Valid
  claim? : ∀ {left right}, related left right → ∀ buffer,
    right.claim? (name buffer) = left.claim? buffer
  unsupported : ∀ {left right}, related left right →
    parts ∨ right.accelerator.pool.unsupported = left.accelerator.pool.unsupported
  refused : ∀ {left right}, related left right → ∀ reason : Error,
    failed reason (reason.rename name) left right
  drop : ∀ {left right}, related left right → ∀ buffer,
    related (left.drop buffer) (right.drop (name buffer))
  unpin : ∀ {left right}, related left right → ∀ buffer,
    related (left.unpin buffer) (right.unpin (name buffer))
  drop_failed : ∀ {reason other left right}, failed reason other left right → ∀ buffer,
    failed reason other (left.drop buffer) (right.drop (name buffer))
  unpin_failed : ∀ {reason other left right}, failed reason other left right → ∀ buffer,
    failed reason other (left.unpin buffer) (right.unpin (name buffer))
  lease : ∀ buffer, toCoupling.Simulates id
    (lease buffer .accelerator) (lease (name buffer) .accelerator)
  read : ∀ buffer, toCoupling.Simulates id (read buffer) (read (name buffer))
  write : ∀ buffer values, toCoupling.Simulates id
    (write buffer values) (write (name buffer) values)
  release : ∀ buffer, toCoupling.Simulates id (release buffer) (release (name buffer))
  update : ∀ buffer change, toCoupling.Simulates id
    (update buffer change) (update (name buffer) change)
  fill : ∀ buffer value, toCoupling.Simulates id (fill buffer value) (fill (name buffer) value)
  allocate : ∀ length, toCoupling.Simulates name
    (allocate length) (allocate length)
  allocateFrom : ∀ values, toCoupling.Simulates name
    (allocateFrom values) (allocateFrom values)
  copy : ∀ {left right source target input inputOther output outputOther},
    related left right →
    left.contents? source = some (.device input) →
    right.contents? (name source) = some (.device inputOther) →
    left.contents? target = some (.device output) →
    right.contents? (name target) = some (.device outputOther) →
    toCoupling.Agrees id (perform (Accelerator.copy input output))
      (perform (Accelerator.copy inputOther outputOther)) left right
  launch : ∀ {ω : Type} {length : Nat} {kernel : Kernel α ω}
    {left right sources targets inputs inputsOther outputs outputsOther},
    related left right →
    left.Behind sources inputs →
    right.Behind (sources.map name) inputsOther →
    left.Behind targets outputs →
    right.Behind (targets.map name) outputsOther →
    toCoupling.Agrees id (perform (Accelerator.launch length inputs outputs kernel))
      (perform (Accelerator.launch length inputsOther outputsOther kernel)) left right

namespace Simulation

variable {simulation : Simulation α}

/-! ## Answers and failures -/

/-- A failure that is about no buffer is the same on both sides. -/
theorem failed_of_nameless
    {reason : Error}
    (nameless : ∀ name, reason.rename name = reason)
    (same : simulation.related left right) :
    simulation.failed reason reason left right := by
  have refused := simulation.refused same reason
  rwa [nameless] at refused

theorem throw
    {change : β → γ}
    {reason : Error}
    (nameless : ∀ name, reason.rename name = reason) :
    simulation.Simulates change (MonadExcept.throw reason) (MonadExcept.throw reason) :=
  .throw fun _ _ same => failed_of_nameless nameless same

theorem check
    {result : Except Error β}
    (nameless : Nameless result) :
    simulation.Simulates id (check result) (check result) := by
  cases result with
  | ok answer => exact .pure rfl
  | error reason => exact throw (nameless reason rfl)

/-- A buffer is as long on one side as on the other. -/
theorem find
    (same : simulation.related left right) :
    InStep (find buffer) (find (simulation.name buffer)) left right
      (fun found other after afterwards => after = left ∧ afterwards = right ∧
        found.length = other.length)
      simulation.failed simulation.parts := by
  have claims := simulation.claim? same buffer
  unfold Store.find Store.claim? at *
  refine .bind (inStep_of_ok rfl rfl ?_)
  cases found : left.buffers.get? buffer with
  | none =>
    rw [found, Option.map_none, Option.map_eq_none_iff] at claims
    rw [claims]
    exact inStep_throw (simulation.refused same (.inconsistency (.missingBuffer buffer)))
  | some held =>
    rw [found, Option.map_some] at claims
    obtain ⟨other, foundOther, claimed⟩ := Option.map_eq_some_iff.1 claims
    rw [foundOther]
    exact inStep_pure ⟨rfl, rfl, (congrArg Claim.length claimed).symm⟩

/-! ## Buffers that are dropped -/

/-- A buffer is dropped on both sides, however the runs ended. -/
theorem dropped
    {change : β → γ}
    {first : Action α β}
    {second : Action α γ}
    (agrees : simulation.Agrees change first second left right)
    (buffer : BufferId) :
    simulation.Agrees change (first.followedBy (·.drop buffer))
      (second.followedBy (·.drop (simulation.name buffer))) left right :=
  agrees_followedBy agrees (fun failed => simulation.drop_failed failed buffer)
    fun same => simulation.drop same buffer

/-- A buffer is dropped on both sides if the runs failed. -/
theorem droppedUnlessDone
    {change : β → γ}
    {first : Action α β}
    {second : Action α γ}
    (agrees : simulation.Agrees change first second left right)
    (buffer : BufferId) :
    simulation.Agrees change (first.unlessDone (·.drop buffer))
      (second.unlessDone (·.drop (simulation.name buffer))) left right :=
  agrees_unlessDone agrees fun failed => simulation.drop_failed failed buffer

theorem withBuffers
    {change : β → γ}
    {body : List BufferId → Action α β}
    {bodyOther : List BufferId → Action α γ}
    (lengths : List Nat)
    (each : ∀ buffers, simulation.Simulates change (body buffers)
      (bodyOther (buffers.map simulation.name))) :
    simulation.Simulates change (withBuffers lengths body) (withBuffers lengths bodyOther) := by
  induction lengths generalizing body bodyOther with
  | nil => exact each []
  | cons length lengths step =>
    exact .bind (simulation.allocate length) fun buffer left right same =>
      dropped (step (fun buffers => each (buffer :: buffers)) left right same) buffer

/-! ## Leases -/

section

variable
    {change : β → γ}
    {first : Action α β}
    {second : Action α γ}

/-- Two runs while the same buffers are leased. -/
theorem withLeasesInOrder
    {buffers : List BufferId}
    (same : simulation.related left right)
    (run : ∀ inside insideOther, simulation.related inside insideOther →
      Leased buffers left inside → Leased (buffers.map simulation.name) right insideOther →
      simulation.Agrees change first second inside insideOther) :
    simulation.Agrees change (withLeasesInOrder buffers first)
      (withLeasesInOrder (buffers.map simulation.name) second) left right := by
  induction buffers generalizing left right with
  | nil =>
    exact run left right same (.refl (simulation.valid same)) (.refl (simulation.validOther same))
  | cons buffer buffers step =>
    refine InStep.bind (((simulation.lease buffer left right same).and_ends
      (ends_lease (simulation.valid same)) (ends_lease (simulation.validOther same))).mono ?_
        fun _ _ _ _ failed => failed.1)
    rintro _ _ _ _ ⟨⟨-, same⟩, ⟨middle, frame, onTier, rfl⟩, middleOther, frameOther, onTierOther,
      rfl⟩
    obtain ⟨held, claimed⟩ := exists_claim onTier.choose_spec.1
    obtain ⟨heldOther, claimedOther⟩ := exists_claim onTierOther.choose_spec.1
    exact agrees_followedBy (step same fun inside insideOther same leased leasedOther =>
      run inside insideOther same (leased.cons frame onTier claimed)
        (leasedOther.cons frameOther onTierOther claimedOther))
      (fun failed => simulation.unpin_failed failed buffer)
      fun same => simulation.unpin same buffer

variable
    (same : simulation.related left right)

include same

theorem withLease
    (run : ∀ inside insideOther, simulation.related inside insideOther →
      Leased [buffer] left inside → Leased [simulation.name buffer] right insideOther →
      simulation.Agrees change first second inside insideOther) :
    simulation.Agrees change (withLease buffer .accelerator first)
      (withLease (simulation.name buffer) .accelerator second) left right :=
  withLeasesInOrder same run

/-- Two leases one inside the other, of whatever buffers. -/
theorem withLeasePair
    {other : BufferId}
    (run : ∀ inside insideOther, simulation.related inside insideOther →
      Leased [buffer, other] left inside →
      Leased [simulation.name buffer, simulation.name other] right insideOther →
      simulation.Agrees change first second inside insideOther) :
    simulation.Agrees change
      (Store.withLease buffer .accelerator (Store.withLease other .accelerator first))
      (Store.withLease (simulation.name buffer) .accelerator
        (Store.withLease (simulation.name other) .accelerator second)) left right :=
  withLeasesInOrder same run

theorem withLeases
    {buffers : List BufferId}
    (run : ∀ inside insideOther, simulation.related inside insideOther →
      Leased buffers left inside → Leased (buffers.map simulation.name) right insideOther →
      simulation.Agrees change first second inside insideOther) :
    simulation.Agrees change (withLeases buffers first)
      (withLeases (buffers.map simulation.name) second) left right := by
  unfold Store.withLeases
  have ordered : ((buffers.map simulation.name).mergeSort
      fun left right => left.index ≤ right.index) =
      (buffers.mergeSort fun left right => left.index ≤ right.index).map simulation.name := by
    refine (List.map_mergeSort fun buffer _ other _ => ?_).symm
    refine decide_eq_decide.2 ?_
    rw [← Nat.not_lt, ← Nat.not_lt, simulation.lt_iff]
  rw [ordered]
  exact withLeasesInOrder same fun inside insideOther same leased leasedOther =>
    run inside insideOther same (leased.perm (List.mergeSort_perm _ _))
      (leasedOther.perm ((List.mergeSort_perm _ _).map _))

end

/-! ## Blocks of leased buffers -/

section

variable
    {inside insideOther : Store α}
    {buffers : List BufferId}
    {failed : Error → Error → Store α → Store α → Prop}
    {parts : Prop}
    (leased : Leased buffers left inside)
    (leasedOther : Leased (buffers.map simulation.name) right insideOther)

include leased leasedOther

theorem blockOf
    (member : buffer ∈ buffers) :
    InStep (blockOf buffer) (blockOf (simulation.name buffer)) inside insideOther
      (fun block other after afterwards => after = inside ∧ afterwards = insideOther ∧
        inside.Pins buffer block ∧ insideOther.Pins (simulation.name buffer) other)
      failed parts := by
  have memberOther := List.mem_map_of_mem (f := simulation.name) member
  refine inStep_of_ends (ends_blockOf (leased.onAccelerator buffer member))
    (ends_blockOf (leasedOther.onAccelerator _ memberOther)) ?_
  rintro _ _ _ _ ⟨rfl, held⟩ ⟨rfl, heldOther⟩
  exact ⟨rfl, rfl, leased.pins member held, leasedOther.pins memberOther heldOther⟩

theorem mapM_blockOf
    {some : List BufferId}
    (among : ∀ buffer ∈ some, buffer ∈ buffers) :
    InStep (some.mapM Store.blockOf) ((some.map simulation.name).mapM Store.blockOf)
      inside insideOther
      (fun blocks others after afterwards => after = inside ∧ afterwards = insideOther ∧
        List.Forall₂ inside.Pins some blocks ∧
        List.Forall₂ insideOther.Pins (some.map simulation.name) others)
      failed parts := by
  have amongOther : ∀ buffer ∈ some.map simulation.name, buffer ∈ buffers.map simulation.name := by
    intro _ renamed
    obtain ⟨buffer, member, rfl⟩ := List.mem_map.1 renamed
    exact List.mem_map_of_mem (among buffer member)
  refine inStep_of_ends (ends_mapM_blockOf leased among)
    (ends_mapM_blockOf leasedOther amongOther) ?_
  rintro _ _ _ _ ⟨rfl, pins⟩ ⟨rfl, pinsOther⟩
  exact ⟨rfl, rfl, pins, pinsOther⟩

end

omit [Arithmetic α] in
/-- Pinned buffers have their blocks behind them. -/
theorem behind_of_pins
    {store : Store α}
    {buffers : List BufferId}
    {blocks : List Block}
    (pins : List.Forall₂ store.Pins buffers blocks) :
    store.Behind buffers blocks :=
  pins.imp fun _ _ pins => pins.contents

/-- A buffer has blocks of its own length on both sides. -/
theorem block_length_eq
    (same : simulation.related left right)
    {block other : Block}
    (stored : left.contents? buffer = some (.device block))
    (storedOther : right.contents? (simulation.name buffer) = some (.device other)) :
    block.length = other.length := by
  obtain ⟨claim, claimed⟩ := exists_claim stored
  have claimedOther := (simulation.claim? same buffer).trans claimed
  obtain ⟨length, -⟩ := (simulation.valid same).fits buffer claim _ claimed stored
  obtain ⟨lengthOther, -⟩ := (simulation.validOther same).fits _ claim _ claimedOther storedOther
  exact length.trans lengthOther.symm

end Simulation

end Store

end Elementwise
