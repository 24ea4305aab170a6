import Elementwise.Proofs.Buffer.Session

/-!
# When buffers were used

Every access moves the clock on and stamps one buffer with the new time.  So no
stamp lies ahead of the clock and no two live buffers have the same stamp,
whatever was asked of a session before and however it went.

Moving contents between the tiers is no access.  What only concerns the stamps,
or anything else apart from contents and the accelerator, is kept by all moves.
-/

namespace Elementwise.Store

variable
    {α β : Type}
    [Arithmetic α]
    {store after : Store α}
    {buffer : BufferId}

/-! ## Conditions that moves to the host do not concern -/

/-- A condition that moving contents to the host does not end. -/
structure Retreating (holds : Store α → Prop) : Prop where
  download : ∀ block length,
    Preserves holds (Store.perform (Accelerator.download block length) : Action α (Array α))
  replace : ∀ store buffer contents, holds store → holds (store.replace buffer contents)

namespace Retreating

variable
    {holds : Store α → Prop}
    (retreating : Retreating holds)

include retreating

theorem moveToHost : Preserves holds (Store.moveToHost buffer : Action α Unit) := by
  refine .bind preserves_find fun found => ?_
  split
  · exact .pure _
  · exact .modify fun store held => retreating.replace store _ _ held
  · exact .bind (retreating.download _ _) fun _ =>
      .modify fun store held => retreating.replace store _ _ held

theorem evict : Preserves holds (Store.evict buffer : Action α Nat) := by
  intro store held
  have moved : Preserves holds
      (do let found ← find buffer; Store.moveToHost buffer; pure found.length : Action α Nat) :=
    .bind preserves_find fun _ => .bind retreating.moveToHost fun _ => .pure _
  exact ends_evict_iff.2 (moved store held)

theorem evictUntil
    (target : Nat)
    (buffers : List BufferId)
    (freed : Nat) :
    Preserves holds (Store.evictUntil target buffers freed : Action α Nat) := by
  induction buffers generalizing freed with
  | nil => exact .pure freed
  | cons buffer buffers step =>
    rw [Store.evictUntil]
    split
    · exact .pure freed
    · exact .bind retreating.evict fun gained => step (freed + gained)

theorem offload
    (target : Nat)
    (device : Option DeviceId) :
    Preserves holds (Store.offload target device : Action α Nat) :=
  .bind .get fun _ => retreating.evictUntil target _ 0

/-- What leases do not end either is not ended by reading. -/
theorem read
    (touch : ∀ store buffer, holds store → holds (store.touch buffer))
    (pin : ∀ store buffer, holds store → holds (store.pin buffer))
    (unpin : ∀ store buffer, holds store → holds (store.unpin buffer)) :
    Preserves holds (Store.read buffer : Action α (Array α)) := by
  have lease : Preserves holds (Store.lease buffer .host : Action α Unit) := by
    unfold Store.lease
    refine .bind (.modify fun store held => touch store buffer held) fun _ =>
      .bind preserves_find fun found => ?_
    dsimp only
    split
    · split
      · exact .throw_bind _
      · exact .bind retreating.moveToHost fun _ =>
          .modify fun store held => pin store buffer held
    · exact .modify fun store held => pin store buffer held
  exact .bind lease fun _ =>
    preserves_followedBy preserves_hostValues fun store held => unpin store buffer held

end Retreating

/-! ## Conditions that no move concerns -/

/-- A condition that concerns neither the contents of buffers nor the accelerator. -/
structure Immobile (holds : Store α → Prop) : Prop where
  accelerator : ∀ store accelerator, holds store → holds { store with accelerator := accelerator }
  replace : ∀ store buffer contents, holds store → holds (store.replace buffer contents)

namespace Immobile

variable
    {holds : Store α → Prop}
    (immobile : Immobile holds)

include immobile

theorem attempt (call : Accelerator.Action α β) : Preserves holds (Store.attempt call) := by
  intro store held
  unfold Ends Store.attempt
  cases call store.accelerator with
  | ok answer accelerator => exact immobile.accelerator store accelerator held
  | error reason accelerator => exact immobile.accelerator store accelerator held

theorem perform (call : Accelerator.Action α β) : Preserves holds (Store.perform call) := by
  refine .bind (immobile.attempt call) fun outcome => ?_
  cases outcome with
  | ok answer => exact .pure answer
  | error reason => exact .throw _

theorem retreating : Retreating holds where
  download _ _ := immobile.perform _
  replace := immobile.replace

theorem allocateBlock (length : Nat) :
    Preserves holds (Store.allocateBlock length : Action α Block) := by
  refine .bind (immobile.attempt _) fun outcome => ?_
  split
  · exact .pure _
  · refine .bind .get fun store => .bind (immobile.retreating.offload length _) fun freed =>
      .bind (immobile.attempt _) fun again => ?_
    split
    · exact .pure _
    · exact .throw _
    · exact .throw _
  · exact .throw _

theorem moveToAccelerator : Preserves holds (Store.moveToAccelerator buffer : Action α Unit) := by
  refine .bind preserves_find fun found => ?_
  split
  · exact .pure _
  · exact .bind (immobile.allocateBlock _) fun _ =>
      .modify fun store held => immobile.replace store _ _ held
  · exact .bind (immobile.allocateBlock _) fun block =>
      .bind
        (preserves_unlessDone (immobile.perform _) fun store held =>
          immobile.accelerator store _ held)
        fun _ => .modify fun store held => immobile.replace store _ _ held

theorem move (tier : Tier) : Preserves holds (Store.move buffer tier : Action α Unit) := by
  cases tier with
  | empty => exact .modify fun store held => immobile.replace store _ _ held
  | host => exact immobile.retreating.moveToHost
  | accelerator => exact immobile.moveToAccelerator

end Immobile

/-! ## Stamps -/

/-- The time of the last access to a buffer. -/
def stamp? (store : Store α) (buffer : BufferId) : Option Nat :=
  (store.buffers.get? buffer).map (·.stamp)

/-- Live buffers have stamps of their own, and none of them lies ahead of the clock. -/
structure Stamped (store : Store α) : Prop where
  past : ∀ buffer stamp, store.stamp? buffer = some stamp → stamp ≤ store.clock
  distinct : ∀ buffer other stamp, store.stamp? buffer = some stamp →
    store.stamp? other = some stamp → buffer = other

/-- The stamps and the clock of a store are given ones. -/
def Timed (stamps : BufferId → Option Nat) (clock : Nat) (store : Store α) : Prop :=
  store.stamp? = stamps ∧ store.clock = clock

omit [Arithmetic α] in
theorem stamp?_modify
    {change : Buffer α → Buffer α}
    (kept : ∀ found, (change found).stamp = found.stamp)
    (other : BufferId) :
    ((store.buffers.modify buffer change).get? other).map (·.stamp) = store.stamp? other := by
  rw [Table.get?_modify, stamp?]
  split
  · cases store.buffers.get? other with
    | none => rfl
    | some found => exact congrArg some (kept found)
  · rfl

theorem stamp?_replace (contents : Contents α) :
    (store.replace buffer contents).stamp? = store.stamp? := by
  funext other
  unfold replace
  split
  · rfl
  next found _ =>
    have kept : ∀ found : Buffer α, ({ found with
        contents := contents, location := contents.tier } : Buffer α).stamp = found.stamp :=
      fun _ => rfl
    exact stamp?_modify kept other

theorem clock_replace (contents : Contents α) :
    (store.replace buffer contents).clock = store.clock := by
  unfold replace
  split <;> rfl

omit [Arithmetic α] in
theorem stamped_create (accelerator : Accelerator α) : (create accelerator).Stamped where
  past := nofun
  distinct := nofun

omit [Arithmetic α] in
/-- A step that stamps nothing and makes no buffer. -/
theorem Stamped.of_stamps
    (stamped : store.Stamped)
    (clock : after.clock = store.clock)
    (stamps : ∀ other stamp, after.stamp? other = some stamp → store.stamp? other = some stamp) :
    after.Stamped where
  past other stamp found := by
    rw [clock]
    exact stamped.past other stamp (stamps other stamp found)
  distinct first second stamp found again :=
    stamped.distinct first second stamp (stamps first stamp found) (stamps second stamp again)

omit [Arithmetic α] in
/-- An access gives a buffer the latest stamp of all. -/
theorem Stamped.of_latest
    (stamped : store.Stamped)
    (buffer : BufferId)
    (clock : after.clock = store.clock + 1)
    (stamps : ∀ other stamp, after.stamp? other = some stamp →
      store.stamp? other = some stamp ∨ other = buffer ∧ stamp = store.clock + 1) :
    after.Stamped where
  past other stamp found := by
    rw [clock]
    rcases stamps other stamp found with old | ⟨-, rfl⟩
    · exact Nat.le_succ_of_le (stamped.past other stamp old)
    · exact Nat.le_refl _
  distinct first second stamp found again := by
    rcases stamps first stamp found with old | ⟨rfl, rfl⟩
    · rcases stamps second stamp again with oldToo | ⟨rfl, rfl⟩
      · exact stamped.distinct first second stamp old oldToo
      · exact absurd (stamped.past first _ old) (Nat.not_succ_le_self _)
    · rcases stamps second _ again with old | ⟨rfl, -⟩
      · exact absurd (stamped.past second _ old) (Nat.not_succ_le_self _)
      · rfl

omit [Arithmetic α] in
theorem Stamped.touch (stamped : store.Stamped) : (store.touch buffer).Stamped := by
  refine stamped.of_latest buffer rfl fun other stamp found => ?_
  have here : ((store.touch buffer).buffers.get? other).map (·.stamp) = some stamp := found
  rw [Store.touch, Table.get?_modify] at here
  split at here
  next same =>
    obtain ⟨_, modified, rfl⟩ := Option.map_eq_some_iff.1 here
    obtain ⟨old, -, rfl⟩ := Option.map_eq_some_iff.1 modified
    exact .inr ⟨same.symm, rfl⟩
  · exact .inl here

omit [Arithmetic α] in
theorem Stamped.register
    (stamped : store.Stamped)
    (length : Nat)
    (contents : Contents α) :
    (store.register length contents).2.Stamped := by
  refine stamped.of_latest ⟨store.nextIndex⟩ rfl fun other stamp found => ?_
  have here : ((store.register length contents).2.buffers.get? other).map (·.stamp) =
      some stamp := found
  rw [Store.register, enlist, Table.get?_insert] at here
  split at here
  next same =>
    cases here
    exact .inr ⟨same.symm, rfl⟩
  · exact .inl here

omit [Arithmetic α] in
theorem Stamped.revised
    (stamped : store.Stamped)
    {change : Buffer α → Buffer α}
    (kept : ∀ found, (change found).stamp = found.stamp) :
    (store.revised buffer change).Stamped :=
  stamped.of_stamps rfl fun other _ found => (stamp?_modify kept other).symm.trans found

theorem immobile_timed
    (stamps : BufferId → Option Nat)
    (clock : Nat) :
    Immobile (Timed stamps clock : Store α → Prop) where
  accelerator _ _ timed := timed
  replace _ _ contents timed :=
    ⟨(stamp?_replace contents).trans timed.1, (clock_replace contents).trans timed.2⟩

theorem Stamped.reclaim (stamped : store.Stamped) : (store.reclaim buffer).Stamped := by
  unfold Store.reclaim
  split
  · exact stamped
  · split
    · exact stamped
    · refine stamped.of_stamps rfl fun other stamp found => ?_
      have here : ((store.buffers.erase buffer).get? other).map (·.stamp) = some stamp := found
      rw [Table.get?_erase] at here
      split at here
      · cases here
      · exact here

omit [Arithmetic α] in
theorem Stamped.hold (stamped : store.Stamped) : (store.hold buffer).Stamped :=
  stamped.revised fun _ => rfl

omit [Arithmetic α] in
theorem Stamped.pin (stamped : store.Stamped) : (store.pin buffer).Stamped :=
  stamped.revised fun _ => rfl

theorem Stamped.drop (stamped : store.Stamped) : (store.drop buffer).Stamped :=
  Stamped.reclaim (stamped.revised fun _ => rfl)

theorem Stamped.unpin (stamped : store.Stamped) : (store.unpin buffer).Stamped :=
  Stamped.reclaim (stamped.revised fun _ => rfl)

/-! ## Accesses -/

/-- A condition that neither moves nor accesses end. -/
structure Enduring (holds : Store α → Prop) : Prop extends Immobile holds where
  touch : ∀ store buffer, holds store → holds (store.touch buffer)
  pin : ∀ store buffer, holds store → holds (store.pin buffer)
  unpin : ∀ store buffer, holds store → holds (store.unpin buffer)

namespace Enduring

variable
    {holds : Store α → Prop}
    (enduring : Enduring holds)

include enduring

theorem claim : Preserves holds (Store.claim buffer : Action α Unit) := by
  refine .bind preserves_find fun found => ?_
  dsimp only
  split
  · exact .throw_bind _
  · exact .modify fun store held => enduring.touch store buffer held

theorem ensure (tier : Tier) : Preserves holds (Store.ensure buffer tier : Action α Unit) :=
  .bind enduring.claim fun _ => enduring.move tier

theorem lease (tier : Tier) : Preserves holds (Store.lease buffer tier : Action α Unit) := by
  unfold Store.lease
  split
  · exact .throw_bind _
  refine .bind (.modify fun store held => enduring.touch store buffer held) fun _ =>
    .bind preserves_find fun found => ?_
  dsimp only
  split
  · split
    · exact .throw_bind _
    · exact .bind (enduring.move tier) fun _ =>
        .modify fun store held => enduring.pin store buffer held
  · exact .modify fun store held => enduring.pin store buffer held

theorem read : Preserves holds (Store.read buffer : Action α (Array α)) :=
  .bind (enduring.lease .host) fun _ =>
    preserves_followedBy preserves_hostValues fun store held => enduring.unpin store buffer held

theorem write
    (values : Array α) :
    Preserves holds (Store.write buffer values : Action α Unit) := by
  refine .bind preserves_find fun found => ?_
  dsimp only
  split
  · exact .throw_bind _
  · exact .bind enduring.claim fun _ =>
      .modify fun store held => enduring.replace store _ _ held

theorem update
    (change : (size : Nat) → Vector α size → Vector α size) :
    Preserves holds (Store.update buffer change : Action α Nat) :=
  .bind enduring.claim fun _ => .bind enduring.retreating.moveToHost fun _ =>
    .bind preserves_hostValues fun _ =>
      .bind (.modify fun store held => enduring.replace store _ _ held) fun _ => .pure _

theorem fill (value : α) : Preserves holds (Store.fill buffer value : Action α Unit) := by
  refine .bind enduring.claim fun _ => .bind preserves_find fun found => ?_
  split
  · exact enduring.perform _
  · exact .modify fun store held => enduring.replace store _ _ held
  · exact .modify fun store held => enduring.replace store _ _ held

end Enduring

theorem enduring_stamped : Enduring (Stamped : Store α → Prop) where
  accelerator _ _ stamped := stamped.of_stamps rfl fun _ _ found => found
  replace _ _ contents stamped :=
    stamped.of_stamps (clock_replace contents) fun other _ found => by
      rwa [stamp?_replace] at found
  touch _ _ stamped := stamped.touch
  pin _ _ stamped := stamped.pin
  unpin _ _ stamped := stamped.unpin

theorem stamped_churned
    (stamped : store.Stamped)
    (length count : Nat) :
    (Session.churned length count store).Stamped := by
  induction count generalizing store with
  | zero => exact stamped
  | succ count step => exact step (stamped.register length .empty).drop

/-! ## Every request -/

namespace Session

variable {session : Session α}

/-- The store of a session satisfies a condition. -/
abbrev OnStore (holds : Store α → Prop) (session : Session α) : Prop :=
  holds session.store

omit [Arithmetic α] in
theorem preserves_named
    {holds : Session α → Prop}
    (name : Nat) :
    Preserves holds (named name : Action α BufferId) :=
  fun _ held => ends_named (fun _ _ => held) held

omit [Arithmetic α] in
theorem preserves_onStore
    {holds : Store α → Prop}
    {action : Store.Action α β}
    (preserves : Preserves holds action) :
    Preserves (OnStore holds) (onStore action) := by
  intro session held
  rw [ends_onStore_iff]
  exact preserves session.store held

theorem stamped_perform (command : Command α) : Preserves (OnStore Stamped) (perform command) := by
  have named : ∀ name, Preserves (OnStore Stamped) (named name : Action α BufferId) :=
    preserves_named
  cases command with
  | allocate length =>
    exact .bind (preserves_onStore (.modifyGet fun _ stamped => stamped.register length .empty))
      fun _ => .modifyGet fun _ held => held
  | allocateFrom values =>
    exact .bind (preserves_onStore (.modifyGet fun _ stamped => stamped.register _ (.host values)))
      fun _ => .modifyGet fun _ held => held
  | churn count length =>
    exact .bind (.modify fun _ stamped => stamped_churned stamped length count) fun _ =>
      .bind .get fun _ => .pure _
  | share index =>
    exact .bind (named index) fun _ => .bind (.modify fun _ stamped => stamped.hold) fun _ =>
      .modifyGet fun _ held => held
  | drop index =>
    exact .bind (named index) fun _ => .bind (.modify fun _ stamped => stamped.drop) fun _ =>
      .pure _
  | ensure index tier =>
    exact .bind (named index) fun _ => .bind
      (preserves_onStore (enduring_stamped.ensure tier)) fun _ =>
      .pure _
  | release index =>
    exact .bind (named index) fun _ => .bind
      (preserves_onStore (enduring_stamped.ensure .empty)) fun _ =>
      .pure _
  | offload target device =>
    exact .bind (preserves_onStore (enduring_stamped.retreating.offload target device))
      fun _ => .pure _
  | read index =>
    exact .bind (named index) fun _ => .bind
      (preserves_onStore enduring_stamped.read) fun _ => .pure _
  | write index values =>
    exact .bind (named index) fun _ => .bind
      (preserves_onStore (enduring_stamped.write values)) fun _ =>
      .pure _
  | fill index value =>
    exact .bind (named index) fun _ => .bind
      (preserves_onStore (enduring_stamped.fill value)) fun _ =>
      .pure _
  | clear index =>
    exact .bind (named index) fun _ => .bind
      (preserves_onStore (enduring_stamped.fill _)) fun _ => .pure _
  | update index change =>
    exact .bind (named index) fun _ => .bind
      (preserves_onStore (enduring_stamped.update change)) fun _ =>
      .pure _
  | lease index tier =>
    exact .bind
      (.bind (.modifyGet fun _ held => held) fun _ => .bind (named index) fun _ =>
        .bind (preserves_onStore (enduring_stamped.lease tier)) fun _ =>
          .bind (.modify fun _ stamped => stamped.hold) fun _ => .pure _)
      fun _ => .pure _
  | unlease lease =>
    refine .bind (.modify fun session stamped => ?_) fun _ => .pure _
    unfold endLease
    split
    · exact stamped.unpin.drop
    · exact stamped
  | reserve length =>
    intro session stamped
    unfold perform
    rw [ends_bind_iff, ends_get_iff]
    split
    · exact enduring_stamped.accelerator session.store _ stamped
    · exact stamped
  | unreserve index =>
    intro session stamped
    unfold perform
    rw [ends_bind_iff, ends_get_iff]
    split
    · exact enduring_stamped.accelerator session.store _ stamped
    · exact stamped

/-- Live buffers have stamps of their own, whatever was asked of a session before. -/
theorem stamped_run
    (stamped : session.store.Stamped)
    (commands : List (Command α)) :
    (session.run commands).store.Stamped :=
  run_of_preserves (fun command _ => stamped_perform command) stamped

end Session

end Elementwise.Store
