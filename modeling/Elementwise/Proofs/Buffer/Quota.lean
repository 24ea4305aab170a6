import Elementwise.Proofs.Buffer.Upkeep

/-!
# How often buffers may be leased

A quota says of every buffer how often it may be leased, which may depend on
its length.  Every action on the store gives back all leases that it takes, so
it keeps the books of the store right and all leases within any quota that
they were within before.

What is said here is for an accelerator that serves nobody else.
-/

namespace Elementwise.Store

variable
    {α β : Type}
    [Arithmetic α]
    {make : Make}
    {store before after : Store α}
    {buffer : BufferId}

/-- How often a buffer of a given length may be leased. -/
abbrev Quota := BufferId → Nat → Nat

/-- One more lease of a buffer of a given length. -/
def Quota.more (quota : Quota) (buffer : BufferId) (length : Nat) : Quota :=
  fun other size => quota other size + if buffer = other ∧ length = size then 1 else 0

/-- The books are right, and no buffer is leased more often than it may be. -/
structure Within (make : Make) (quota : Quota) (store : Store α) : Prop where
  accounted : store.Accounted make ∅
  leases : ∀ buffer claim, store.claim? buffer = some claim →
    claim.leases ≤ quota buffer claim.length

section

variable
    {quota : Quota}
    {made written : Set BufferId}

/-- A step leaves the leases alone, but for buffers that it makes and that nobody leases. -/
theorem Within.of_frame
    (within : before.Within make quota)
    (accounted : after.Accounted make ∅)
    (frame : Frame made written before after)
    (new : ∀ buffer ∈ made, ∀ claim, after.claim? buffer = some claim → claim.leases = 0) :
    after.Within make quota where
  accounted := accounted
  leases buffer claim claimed := by
    by_cases member : buffer ∈ made
    · rw [new buffer member claim claimed]
      exact Nat.zero_le _
    · rw [frame.claims buffer member] at claimed
      exact within.leases buffer claim claimed

/-- An action makes and drops no buffer, whether it succeeds or not. -/
def Frames (action : Action α β) (before : Store α) : Prop :=
  Ends action before (fun _ after => ∃ written, Frame ∅ written before after)
    (fun _ after => ∃ written, Frame ∅ written before after)

/-- An action that keeps the books right and changes no claim keeps all leases within a quota. -/
theorem within_of_frame
    {action : Action α β}
    (accounted : Preserves (Accounted make ∅) action)
    (frames : ∀ store, store.Valid → Frames action store) :
    Preserves (Within make quota) action := by
  intro store within
  refine ((accounted store within.accounted).and (frames store within.accounted.valid)).mono ?_ ?_
  · rintro _ after ⟨books, written, frame⟩
    exact within.of_frame books frame fun _ absent => absurd absent (Set.notMem_empty _)
  · rintro _ after ⟨books, written, frame⟩
    exact within.of_frame books frame fun _ absent => absurd absent (Set.notMem_empty _)

/-! ## Claims that are given up -/

/-- Where a buffer is live after a claim on it is taken back, it was live before. -/
theorem exists_claim_of_reclaim
    {change : Buffer α → Buffer α}
    {revise : Claim → Claim}
    (revises : Revises change revise)
    {other : BufferId}
    {claim : Claim}
    (claimed : ((store.revised buffer change).reclaim buffer).claim? other = some claim) :
    ∃ old, store.claim? other = some old ∧
      claim = if buffer = other then revise old else old := by
  have revised : ∀ {claim : Claim}, (store.revised buffer change).claim? other = some claim →
      ∃ old, store.claim? other = some old ∧
        claim = if buffer = other then revise old else old := by
    intro claim claimed
    rw [claim?_revised revises] at claimed
    split at claimed
    next same =>
      obtain ⟨old, held, rfl⟩ := Option.map_eq_some_iff.1 claimed
      exact ⟨old, held, (if_pos same).symm⟩
    next different => exact ⟨claim, claimed, (if_neg different).symm⟩
  unfold reclaim at claimed
  split at claimed
  · exact revised claimed
  · split at claimed
    · exact revised claimed
    · rw [claim?_erased] at claimed
      split at claimed
      · cases claimed
      · exact revised claimed

theorem Within.drop (within : store.Within make quota) : (store.drop buffer).Within make quota where
  accounted := within.accounted.drop
  leases other claim claimed := by
    obtain ⟨old, held, rfl⟩ := exists_claim_of_reclaim revises_drop claimed
    split
    · exact within.leases other old held
    · exact within.leases other old held

omit [Arithmetic α] in
theorem Within.mono
    {larger : Quota}
    (within : store.Within make quota)
    (more : ∀ other length, quota other length ≤ larger other length) :
    store.Within make larger where
  accounted := within.accounted
  leases other claim claimed := Nat.le_trans (within.leases other claim claimed) (more _ _)

theorem Within.hold (within : store.Within make quota) : (store.hold buffer).Within make quota where
  accounted := within.accounted.hold
  leases other claim claimed := by
    have revised : (store.hold buffer).claim? other = _ := claim?_revised revises_hold other
    rw [claimed] at revised
    split at revised
    · obtain ⟨old, held, rfl⟩ := Option.map_eq_some_iff.1 revised.symm
      exact within.leases other old held
    · exact within.leases other claim revised.symm

/-- A lease that ends was one more than there may be afterwards. -/
theorem Within.unpin_of_le
    {fewer : Quota}
    (within : store.Within make quota)
    (less : ∀ other length,
      quota other length ≤ fewer other length + if buffer = other then 1 else 0) :
    (store.unpin buffer).Within make fewer where
  accounted := within.accounted.unpin
  leases other claim claimed := by
    obtain ⟨old, held, rfl⟩ := exists_claim_of_reclaim revises_unpin claimed
    have enough := Nat.le_trans (within.leases other old held) (less other old.length)
    split
    next same =>
      rw [if_pos same] at enough
      exact Nat.sub_le_of_le_add enough
    next different => rwa [if_neg different] at enough

theorem Within.unpin
    {length : Nat}
    (within : store.Within make (quota.more buffer length)) :
    (store.unpin buffer).Within make quota := by
  refine within.unpin_of_le fun other size => Nat.add_le_add_left ?_ _
  split
  next both => rw [if_pos both.1]
  next => exact Nat.zero_le _

end

variable {quota : Quota}

/-! ## Leases -/

theorem ends_lease_within
    {tier : Tier}
    (within : before.Within make quota) :
    Ends (lease buffer tier) before
      (fun _ after => ∃ length, after.Within make (quota.more buffer length))
      (fun _ after => after.Within make quota) := by
  refine ((accounted_lease before within.accounted).and
    (ends_lease within.accounted.valid)).mono ?_ ?_
  · rintro _ _ ⟨books, middle, frame, ⟨contents, stored, -⟩, rfl⟩
    obtain ⟨claim, claimed⟩ := exists_claim stored
    refine ⟨claim.length, books, fun other held found => ?_⟩
    rw [claim?_pin] at found
    unfold Quota.more
    split at found
    next same =>
      subst same
      rw [claimed] at found
      cases found
      rw [if_pos ⟨rfl, rfl⟩]
      rw [frame.claims buffer (Set.notMem_empty _)] at claimed
      exact Nat.succ_le_succ (within.leases buffer claim claimed)
    next different =>
      rw [if_neg fun both => different both.1]
      rw [frame.claims other (Set.notMem_empty _)] at found
      exact within.leases other held found
  · rintro _ after ⟨books, frame⟩
    exact within.of_frame books frame fun _ absent => absurd absent (Set.notMem_empty _)

/-- A lease for the length of an action is given back, however the action ends. -/
theorem within_withLease
    {tier : Tier}
    {body : Action α β}
    (run : ∀ quota, Preserves (Within make quota) body) :
    Preserves (Within make quota) (withLease buffer tier body) := by
  intro store within
  unfold withLease
  rw [ends_bind_iff]
  refine (ends_lease_within within).mono ?_ fun _ _ failed => failed
  rintro _ middle ⟨length, pinned⟩
  rw [ends_followedBy_iff]
  exact (run _ middle pinned).mono (fun _ _ inner => inner.unpin) fun _ _ inner => inner.unpin

theorem within_withLeasesInOrder
    (buffers : List BufferId)
    {body : Action α β}
    (run : ∀ quota, Preserves (Within make quota) body) :
    Preserves (Within make quota) (withLeasesInOrder buffers body) := by
  induction buffers generalizing quota with
  | nil => exact run quota
  | cons buffer buffers step => exact within_withLease fun _ => step

theorem within_withLeases
    (buffers : List BufferId)
    {body : Action α β}
    (run : ∀ quota, Preserves (Within make quota) body) :
    Preserves (Within make quota) (withLeases buffers body) :=
  within_withLeasesInOrder _ run

/-! ## Calls of the accelerator -/

omit [Arithmetic α] in
/-- A call of the accelerator concerns no claim. -/
theorem within_call
    {method : Method}
    {act : Pool α → Except DeviceError (β × Pool α)}
    (accounted : Preserves (Accounted make ∅) (perform (Accelerator.call method act))) :
    Preserves (Within make quota) (perform (Accelerator.call method act)) := by
  intro store within
  have same : Ends (perform (Accelerator.call method act)) store
      (fun _ after => after.claim? = store.claim?) (fun _ after => after.claim? = store.claim?) :=
    ends_perform (fun _ _ _ _ => rfl) fun _ _ => rfl
  refine ((accounted store within.accounted).and same).mono ?_ ?_
  · rintro _ after ⟨books, claims⟩
    exact ⟨books, claims ▸ within.leases⟩
  · rintro _ after ⟨books, claims⟩
    exact ⟨books, claims ▸ within.leases⟩

theorem within_launch
    {ω : Type}
    {length : Nat}
    {inputs outputs : List Block}
    {kernel : Kernel α ω} :
    Preserves (Within make quota)
      (perform (Accelerator.launch length inputs outputs kernel) : Action α Unit) :=
  within_call accounted_launch

omit [Arithmetic α] in
theorem within_copy
    {source target : Block} :
    Preserves (Within make quota)
      (perform (Accelerator.copy source target) : Action α Unit) :=
  within_call accounted_copy

/-! ## Reading, writing and moving -/

section

variable (valid : before.Valid)

include valid

theorem frames_read : Frames (read buffer : Action α (Array α)) before :=
  (ends_read valid).mono (fun _ _ done => ⟨_, done.1⟩) fun _ _ frame => ⟨_, frame⟩

theorem frames_write
    (values : Array α) :
    Frames (write buffer values : Action α Unit) before :=
  (ends_write valid values).mono (fun _ _ done => ⟨_, done.1⟩) fun _ _ frame => ⟨_, frame⟩

theorem frames_update
    (change : (size : Nat) → Vector α size → Vector α size) :
    Frames (update buffer change : Action α Nat) before :=
  (ends_update valid change).mono (fun _ _ done => ⟨_, done.1⟩) fun _ _ frame => ⟨_, frame⟩

theorem frames_fill
    (value : α) :
    Frames (fill buffer value : Action α Unit) before :=
  (ends_fill valid value).mono (fun _ _ done => ⟨_, done.1⟩) fun _ _ frame => ⟨_, frame⟩

theorem frames_release : Frames (release buffer : Action α Unit) before :=
  (ends_release valid).mono (fun _ _ done => ⟨_, done.1⟩) fun _ _ frame => ⟨_, frame⟩

theorem frames_ensure
    (tier : Tier) :
    Frames (ensure buffer tier : Action α Unit) before := by
  by_cases stored : tier = .empty
  · subst stored
    exact frames_release valid
  · exact (ends_ensure valid stored).mono (fun _ _ frame => ⟨_, frame⟩) fun _ _ frame => ⟨_, frame⟩

theorem frames_offload
    (target : Nat)
    (device : Option DeviceId) :
    Frames (offload target device : Action α Nat) before :=
  (ends_offload valid target device).mono (fun _ _ done => ⟨_, done.1⟩) fun _ _ never => never.elim

end

theorem within_read : Preserves (Within make quota) (read buffer : Action α (Array α)) :=
  within_of_frame accounted_read fun _ => frames_read

theorem within_write
    (values : Array α) :
    Preserves (Within make quota) (write buffer values : Action α Unit) :=
  within_of_frame (accounted_write values) fun _ valid => frames_write valid values

theorem within_update
    (change : (size : Nat) → Vector α size → Vector α size) :
    Preserves (Within make quota) (update buffer change : Action α Nat) :=
  within_of_frame (accounted_update change) fun _ valid => frames_update valid change

theorem within_clear : Preserves (Within make quota) (clear buffer : Action α Unit) :=
  within_of_frame accounted_clear fun _ valid => frames_fill valid Arithmetic.zero

theorem within_release : Preserves (Within make quota) (release buffer : Action α Unit) :=
  within_of_frame accounted_release fun _ => frames_release

theorem within_ensure
    (tier : Tier) :
    Preserves (Within make quota) (ensure buffer tier : Action α Unit) :=
  within_of_frame accounted_ensure fun _ valid => frames_ensure valid tier

theorem within_offload
    (target : Nat)
    (device : Option DeviceId) :
    Preserves (Within make quota) (offload target device : Action α Nat) :=
  within_of_frame accounted_offload fun _ valid => frames_offload valid target device

/-! ## New buffers -/

/-- An action that makes a buffer that nobody leases yet. -/
theorem within_of_fresh
    {action : Action α BufferId}
    {length : Nat}
    (accounted : Preserves (Accounted make ∅) action)
    (makes : ∀ store, store.Valid → Ends action store
      (fun buffer after => Frame {buffer} ∅ store after ∧
        after.claim? buffer = some (.fresh length))
      (fun _ _ => False)) :
    Preserves (Within make quota) action := by
  intro store within
  refine ((accounted store within.accounted).and (makes store within.accounted.valid)).mono ?_
    fun _ _ never => never.2.elim
  rintro buffer after ⟨books, frame, fresh⟩
  refine within.of_frame books frame fun other member claim claimed => ?_
  rw [Set.mem_singleton_iff.1 member, fresh] at claimed
  cases claimed
  rfl

theorem within_allocate
    (length : Nat) :
    Preserves (Within make quota) (allocate length : Action α BufferId) :=
  within_of_fresh (accounted_allocate length) fun _ valid =>
    (ends_allocate valid length).mono (fun _ _ done => ⟨done.2.1, done.2.2.1⟩)
      fun _ _ never => never

theorem within_allocateFrom
    (values : Array α) :
    Preserves (Within make quota) (allocateFrom values : Action α BufferId) :=
  within_of_fresh (accounted_allocateFrom values) fun _ valid =>
    (ends_allocateFrom valid values).mono (fun _ _ done => ⟨done.2.1, done.2.2.1⟩)
      fun _ _ never => never

theorem within_withBuffer
    (length : Nat)
    {body : BufferId → Action α β}
    (run : ∀ buffer, Preserves (Within make quota) (body buffer)) :
    Preserves (Within make quota) (withBuffer length body) :=
  .bind (within_allocate length) fun buffer =>
    preserves_followedBy (run buffer) fun _ within => within.drop

theorem within_withBuffers
    (lengths : List Nat)
    {body : List BufferId → Action α β}
    (run : ∀ buffers, Preserves (Within make quota) (body buffers)) :
    Preserves (Within make quota) (withBuffers lengths body) := by
  induction lengths generalizing body with
  | nil => exact run []
  | cons length lengths step =>
    exact within_withBuffer length fun buffer => step fun buffers => run (buffer :: buffers)

end Elementwise.Store
