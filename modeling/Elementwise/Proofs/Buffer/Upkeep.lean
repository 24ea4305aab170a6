import Elementwise.Proofs.Buffer.Access
import Elementwise.Proofs.Buffer.Accounting

/-!
# Actions that keep the books of a store right

Every action on the store keeps its books right, whether it succeeds or fails,
and whatever others hold on the same accelerator.  The one action of which
more has to be said is the allocation of a block, which leaves a block that
belongs to no buffer yet.

Launches and copies are stated for an accelerator that serves nobody else,
because the blocks that they write are given by their caller.
-/

namespace Elementwise.Store

variable
    {α β : Type}
    [Arithmetic α]
    {make : Make}
    {others : Others α}
    {before : Store α}
    {buffer : BufferId}

/-! ## Ways of building actions -/

omit [Arithmetic α] in
theorem preserves_followedBy
    {holds : Store α → Prop}
    {action : Action α β}
    {change : Store α → Store α}
    (preserves : Preserves holds action)
    (kept : ∀ store, holds store → holds (change store)) :
    Preserves holds (action.followedBy change) := by
  intro store held
  rw [ends_followedBy_iff]
  exact (preserves store held).mono (fun _ after => kept after) fun _ after => kept after

omit [Arithmetic α] in
theorem preserves_unlessDone
    {holds : Store α → Prop}
    {action : Action α β}
    {change : Store α → Store α}
    (preserves : Preserves holds action)
    (kept : ∀ store, holds store → holds (change store)) :
    Preserves holds (action.unlessDone change) := by
  intro store held
  rw [ends_unlessDone_iff]
  exact (preserves store held).mono (fun _ _ after => after) fun _ after => kept after

omit [Arithmetic α] in
theorem preserves_check
    {holds : Store α → Prop}
    (result : Except Error β) :
    Preserves holds (check result : Action α β) := by
  cases result with
  | ok answer => exact .pure answer
  | error error => exact .throw error

omit [Arithmetic α] in
theorem preserves_find
    {holds : Store α → Prop} :
    Preserves holds (find buffer : Action α (Buffer α)) :=
  fun _ held => ends_find (fun _ _ _ => held) fun _ => held

omit [Arithmetic α] in
theorem preserves_blockOf
    {holds : Store α → Prop} :
    Preserves holds (blockOf buffer : Action α Block) := by
  refine .bind preserves_find fun found => ?_
  split
  · exact .pure _
  · exact .throw _

omit [Arithmetic α] in
theorem preserves_hostValues
    {holds : Store α → Prop} :
    Preserves holds (hostValues buffer : Action α (Array α)) := by
  refine .bind preserves_find fun found => ?_
  split
  · exact .pure _
  · exact .pure _

omit [Arithmetic α] in
/-- A call that only rewrites blocks, and none that others hold. -/
theorem ends_rewrite
    {method : Method}
    {act : Pool α → Except DeviceError (β × Pool α)}
    (accounted : before.Accounted make others)
    (rewrites : ∀ answer pool, act before.accelerator.pool = .ok (answer, pool) →
      Pool.Rewrites before.accelerator.pool pool ∧
        ∀ handle stored, (handle, stored) ∈ others →
          pool.blocks.get? handle = before.accelerator.pool.blocks.get? handle) :
    Ends (perform (Accelerator.call method act)) before
      (fun answer after => ∃ pool calls, act before.accelerator.pool = .ok (answer, pool) ∧
        after = before.called calls pool ∧ after.Accounted make others)
      (fun _ after => after.Accounted make others) := by
  refine ends_perform ?_ fun _ calls => accounted.refused calls
  intro answer pool calls acted
  obtain ⟨kept, untouched⟩ := rewrites answer pool acted
  exact ⟨pool, calls, acted, rfl, accounted.called kept untouched calls⟩

/-- A launch on an accelerator that serves nobody else. -/
theorem accounted_launch
    {ω : Type}
    {length : Nat}
    {inputs outputs : List Block}
    {kernel : Kernel α ω} :
    Preserves (Accounted make ∅)
      (perform (Accelerator.launch length inputs outputs kernel) : Action α Unit) := by
  intro store accounted
  refine (ends_rewrite accounted ?_).mono ?_ fun _ _ after => after
  · intro _ pool acted
    obtain ⟨next, done, same⟩ := map_eq_ok_iff.1 acted
    cases same
    exact ⟨Pool.rewrites_launch done, fun _ _ absent => absurd absent (Set.notMem_empty _)⟩
  · rintro _ _ ⟨pool, calls, -, -, after⟩
    exact after

omit [Arithmetic α] in
/-- A copy on an accelerator that serves nobody else. -/
theorem accounted_copy
    {source target : Block} :
    Preserves (Accounted make ∅)
      (perform (Accelerator.copy source target) : Action α Unit) := by
  intro store accounted
  refine (ends_rewrite accounted ?_).mono ?_ fun _ _ after => after
  · intro _ pool acted
    obtain ⟨next, done, same⟩ := map_eq_ok_iff.1 acted
    cases same
    exact ⟨Pool.rewrites_copy done, fun _ _ absent => absurd absent (Set.notMem_empty _)⟩
  · rintro _ _ ⟨pool, calls, -, -, after⟩
    exact after

/-! ## Moving buffers -/

theorem accounted_moveToHost :
    Preserves (Accounted make others) (moveToHost buffer : Action α Unit) := by
  intro store accounted
  unfold moveToHost
  rw [ends_bind_iff]
  refine ends_find ?_ fun _ => accounted
  intro found claimed held
  cases contents : found.contents with
  | host values => exact accounted
  | empty => exact accounted.replace_off claimed (size_zeros ..) fun _ => nofun
  | device block =>
    dsimp only
    rw [ends_bind_iff]
    refine (ends_rewrite accounted ?_).mono ?_ fun _ _ after => after
    · intro values pool downloaded
      obtain ⟨-, -, counters, rfl⟩ := Pool.download_eq_ok downloaded
      exact ⟨Pool.rewrites_download downloaded, fun _ _ _ => rfl⟩
    · rintro values _ ⟨pool, calls, downloaded, rfl, after⟩
      obtain ⟨-, size, -⟩ := Pool.download_eq_ok downloaded
      have still : (store.called calls pool).claim? buffer = some found.claim := claimed
      exact after.replace_off still size fun _ => nofun

theorem accounted_evict :
    Preserves (Accounted make others) (evict buffer : Action α Nat) := by
  intro store accounted
  have moves : Preserves (Accounted make others) (do
      let found ← find buffer
      moveToHost buffer
      pure found.length : Action α Nat) :=
    .bind preserves_find fun _ => .bind accounted_moveToHost fun _ => .pure _
  have ends := moves store accounted
  unfold Ends at ends ⊢
  unfold evict
  cases outcome : (do
      let found ← find buffer
      moveToHost buffer
      pure found.length : Action α Nat) store with
  | ok freed after =>
    rw [outcome] at ends
    exact ends
  | error reason after =>
    rw [outcome] at ends
    exact ends

theorem accounted_evictUntil
    {target freed : Nat}
    {buffers : List BufferId} :
    Preserves (Accounted make others) (evictUntil target buffers freed : Action α Nat) := by
  induction buffers generalizing freed with
  | nil => exact .pure _
  | cons buffer buffers step =>
    rw [evictUntil]
    split
    · exact .pure _
    · exact .bind accounted_evict fun _ => step

theorem accounted_offload
    {target : Nat}
    {device : Option DeviceId} :
    Preserves (Accounted make others) (offload target device : Action α Nat) :=
  .bind .get fun _ => accounted_evictUntil

/-- A block that was allocated a moment ago and belongs to no buffer yet. -/
structure Pending
    (make : Make)
    (others : Others α)
    (length : Nat)
    (block : Block)
    (store : Store α) : Prop where
  accounted : store.Accounted make (insert (block.handle, some (zeros α length)) others)
  only : ∀ stored, (block.handle, stored) ∉ others
  length : block.length = length

theorem ends_attempt_allocate_accounted
    (accounted : before.Accounted make others)
    (length : Nat) :
    Ends (attempt (Accelerator.allocate length)) before
      (fun outcome after =>
        (∀ block, outcome = .ok block → Pending make others length block after) ∧
        ∀ error, outcome = .error error → after.Accounted make others)
      (fun _ _ => False) := by
  refine ends_attempt ?_ fun reason calls => ⟨nofun, fun _ _ => accounted.refused calls⟩
  intro block pool calls allocated
  obtain ⟨after, isNew⟩ := accounted.allocated allocated calls
  refine ⟨?_, nofun⟩
  rintro _ ⟨⟩
  refine ⟨after, ?_, by rw [isNew]⟩
  rw [isNew]
  exact accounted.unused

theorem ends_allocateBlock_accounted
    (accounted : before.Accounted make others)
    (length : Nat) :
    Ends (allocateBlock length) before
      (fun block after => Pending make others length block after)
      (fun _ after => after.Accounted make others) := by
  unfold allocateBlock
  rw [ends_bind_iff]
  refine (ends_attempt_allocate_accounted accounted length).mono ?_
    fun _ _ impossible => impossible.elim
  rintro outcome middle ⟨granted, refused⟩
  match outcome with
  | .ok block => exact granted block rfl
  | .error (.invalidBlock handle) => exact refused _ rfl
  | .error (.lengthMismatch expected actual) => exact refused _ rfl
  | .error (.fault reason) => exact refused _ rfl
  | .error (.outOfMemory requested available) =>
    rw [ends_bind_iff, ends_get_iff, ends_bind_iff]
    refine (accounted_offload middle (refused _ rfl)).mono ?_ fun _ _ after => after
    intro freed evicted offloaded
    rw [ends_bind_iff]
    refine (ends_attempt_allocate_accounted offloaded length).mono ?_
      fun _ _ impossible => impossible.elim
    rintro second after ⟨granted, refused⟩
    match second with
    | .ok block => exact granted block rfl
    | .error (.outOfMemory _ _) => exact refused _ rfl
    | .error (.invalidBlock _) => exact refused _ rfl
    | .error (.lengthMismatch _ _) => exact refused _ rfl
    | .error (.fault _) => exact refused _ rfl

theorem accounted_moveToAccelerator :
    Preserves (Accounted make others) (moveToAccelerator buffer : Action α Unit) := by
  intro store accounted
  unfold moveToAccelerator
  rw [ends_bind_iff]
  refine ends_find ?_ fun _ => accounted
  intro found claimed held
  have granted := (ends_allocateBlock accounted.valid found.length).and
    (ends_allocateBlock_accounted accounted found.length)
  have still : ∀ {middle : Store α}, Frame ∅ ∅ store middle →
      middle.claim? buffer = some found.claim := by
    intro middle frame
    rw [frame.claims buffer (Set.notMem_empty _), claimed]
  cases contents : found.contents with
  | device block => exact accounted
  | empty =>
    dsimp only
    rw [ends_bind_iff]
    refine granted.mono ?_ fun _ _ after => after.2
    rintro block middle ⟨⟨frame, -, grant⟩, pending⟩
    exact pending.accounted.replace_device pending.only (still frame) grant.fits
  | host values =>
    dsimp only
    rw [ends_bind_iff]
    refine granted.mono ?_ fun _ _ after => after.2
    rintro block middle ⟨⟨frame, -, grant⟩, pending⟩
    have size : values.size = found.length := by
      have fits := accounted.valid.fits buffer _ _ claimed held
      rw [contents] at fits
      exact fits
    rw [ends_bind_iff, ends_unlessDone_iff]
    refine ends_perform ?_ ?_
    · intro _ pool calls acted
      obtain ⟨next, done, same⟩ := map_eq_ok_iff.1 acted
      cases same
      obtain ⟨keeps, named, live⟩ := Pool.upload_eq_ok pending.accounted.valid.named done
      -- the block is rewritten before it comes to the buffer, so it counts as another one
      have uploaded : (middle.called calls pool).Accounted make
          (insert (block.handle, some values) others) :=
        pending.accounted.uploaded pending.only done calls
      obtain ⟨length, device, -⟩ := grant.fits
      have fits : (Contents.device block : Contents α).Fits
          (middle.called calls pool).accelerator.pool found.length :=
        ⟨length, device.trans keeps.id.symm, values, live, size⟩
      have claimedMiddle : middle.claim? buffer = some found.claim := still frame
      have claimedAfter : (middle.called calls pool).claim? buffer = some found.claim :=
        claimedMiddle
      exact uploaded.replace_device pending.only claimedAfter fits
    · intro reason calls
      have refused := pending.accounted.refused calls
      exact refused.free pending.only ((size_zeros ..).trans pending.length.symm)

theorem accounted_replace_empty
    {store : Store α}
    (accounted : store.Accounted make others) :
    (store.replace buffer .empty).Accounted make others := by
  cases present : store.buffers.get? buffer with
  | none =>
    unfold replace
    rw [present]
    exact accounted
  | some found =>
    have claimed : store.claim? buffer = some found.claim := by
      rw [claim?, present, Option.map_some]
    exact accounted.replace_off claimed trivial (by rintro _ ⟨⟩)

theorem accounted_move
    {tier : Tier} :
    Preserves (Accounted make others) (move buffer tier : Action α Unit) := by
  cases tier with
  | empty => exact .modify fun _ accounted => accounted_replace_empty accounted
  | host => exact accounted_moveToHost
  | accelerator => exact accounted_moveToAccelerator

/-! ## Reading, writing and leasing -/

omit [Arithmetic α] in
theorem accounted_claim :
    Preserves (Accounted make others) (claim buffer : Action α Unit) := by
  refine .bind preserves_find fun found => ?_
  dsimp only
  split
  · exact .throw_bind _
  · exact .modify fun _ accounted => accounted.touch

theorem accounted_ensure
    {tier : Tier} :
    Preserves (Accounted make others) (ensure buffer tier : Action α Unit) :=
  .bind accounted_claim fun _ => accounted_move

theorem accounted_release :
    Preserves (Accounted make others) (release buffer : Action α Unit) :=
  accounted_ensure

theorem accounted_lease
    {tier : Tier} :
    Preserves (Accounted make others) (lease buffer tier : Action α Unit) := by
  unfold lease
  dsimp only
  split
  · exact .throw_bind _
  · refine .bind (.modify fun _ accounted => accounted.touch) fun _ =>
      .bind preserves_find fun found => ?_
    split
    · split
      · exact .throw_bind _
      · exact .bind accounted_move fun _ => .modify fun _ accounted => accounted.pin
    · exact .modify fun _ accounted => accounted.pin

section

variable {body : Action α β}

theorem accounted_withLease
    {tier : Tier}
    (run : Preserves (Accounted make others) body) :
    Preserves (Accounted make others) (withLease buffer tier body) :=
  .bind accounted_lease fun _ => preserves_followedBy run fun _ accounted => accounted.unpin

end

theorem accounted_read :
    Preserves (Accounted make others) (read buffer : Action α (Array α)) :=
  accounted_withLease preserves_hostValues

theorem accounted_write
    (values : Array α) :
    Preserves (Accounted make others) (write buffer values : Action α Unit) := by
  intro store accounted
  unfold write
  rw [ends_bind_iff]
  refine ends_find ?_ fun _ => accounted
  intro found claimed _
  dsimp only
  split
  · exact accounted
  next fits =>
    rw [ends_bind_iff]
    refine ((accounted_claim store accounted).and ends_claim).mono ?_ fun _ _ after => after.1
    rintro _ middle ⟨after, alike, -⟩
    have still : middle.claim? buffer = some found.claim := by
      rw [alike.claim?, claimed]
    exact after.replace_off still (show values.size = found.length from not_not.1 fits)
      fun _ => nofun

theorem accounted_update
    (change : (size : Nat) → Vector α size → Vector α size) :
    Preserves (Accounted make others) (update buffer change : Action α Nat) := by
  intro store accounted
  unfold update
  rw [ends_bind_iff]
  refine ((accounted_claim store accounted).and ends_claim).mono ?_ fun _ _ after => after.1
  rintro _ first ⟨touched, alike, held, claimed, unleased⟩
  have idle := alike.idle (idle_of_claim claimed unleased)
  rw [ends_bind_iff]
  refine ((accounted_moveToHost first touched).and (ends_moveToHost touched.valid idle)).mono ?_
    fun _ _ after => after.1
  rintro _ middle ⟨moved, frame, -, -, values, stored, -⟩
  rw [ends_bind_iff]
  refine (ends_hostValues ⟨_, stored, rfl⟩).mono ?_
    fun _ _ (after : Accounted make others _) => after
  rintro answer after ⟨rfl, same⟩
  have still : after.claim? buffer = some held := by
    rw [frame.claims buffer (Set.notMem_empty _), alike.claim?, claimed]
  refine moved.replace_off still ?_ fun _ => nofun
  show (change _ answer.toVector).toArray.size = held.length
  rw [Vector.size_toArray]
  exact moved.valid.fits buffer held _ still same

theorem accounted_fill
    (value : α) :
    Preserves (Accounted make others) (fill buffer value : Action α Unit) := by
  refine .bind accounted_claim fun _ => ?_
  intro store accounted
  rw [ends_bind_iff]
  refine ends_find ?_ fun _ => accounted
  intro found claimed held
  have fits := accounted.valid.fits buffer _ _ claimed held
  cases contents : found.contents with
  | empty => exact accounted.replace_off claimed Array.size_replicate fun _ => nofun
  | host values =>
    rw [contents] at fits
    refine accounted.replace_off claimed ?_ fun _ => nofun
    show (values.map _).size = _
    rw [Array.size_map]
    exact fits
  | device block =>
    rw [contents] at held
    dsimp only
    refine (ends_rewrite accounted ?_).mono ?_ fun _ _ after => after
    · intro _ pool acted
      obtain ⟨next, done, same⟩ := map_eq_ok_iff.1 acted
      cases same
      refine ⟨Pool.rewrites_fill done, fun handle stored member => ?_⟩
      have different : ¬ block.handle = handle := fun same =>
        accounted.apart buffer handle stored ⟨block, held, same⟩ member
      obtain ⟨current, -, done⟩ := bind_eq_ok_iff.1 done
      cases done
      rw [Table.get?_modify, if_neg different]
    · rintro _ _ ⟨pool, calls, -, -, after⟩
      exact after

theorem accounted_clear :
    Preserves (Accounted make others) (clear buffer : Action α Unit) :=
  accounted_fill _

/-! ## New buffers -/

theorem accounted_allocate
    (length : Nat) :
    Preserves (Accounted make others) (allocate length : Action α BufferId) :=
  fun _ accounted => accounted.register trivial fun _ => nofun

theorem accounted_allocateFrom
    (values : Array α) :
    Preserves (Accounted make others) (allocateFrom values : Action α BufferId) :=
  fun _ accounted => accounted.register rfl fun _ => nofun

end Elementwise.Store
