import Elementwise.Buffer.Migration
import Elementwise.Proofs.Buffer.Change

/-!
# Moving a buffer keeps what every buffer reads as

Downloads, uploads, evictions and allocations of blocks leave the claims and
the readings of all buffers alone, whether they succeed or fail.  Contents that
are off the accelerator stay as they are unless it is their buffer that moves,
so that an upload may rely on the values it started from.
-/

namespace Elementwise.Store

variable {α : Type} [Arithmetic α] {before : Store α} {buffer : BufferId}

/-! ## Calls of the accelerator -/

/-- The store after a call of the accelerator that has changed its memory. -/
def called (store : Store α) (calls : CallCounts) (pool : Pool α) : Store α :=
  { store with accelerator := { store.accelerator with pool := pool, calls := calls } }

omit [Arithmetic α] in
theorem ends_attempt
    {β : Type}
    {method : Method}
    {act : Pool α → Except DeviceError (β × Pool α)}
    {done : Except DeviceError β → Store α → Prop}
    {failed : Error → Store α → Prop}
    (succeeds : ∀ answer pool calls, act before.accelerator.pool = .ok (answer, pool) →
      done (.ok answer) (before.called calls pool))
    (fails : ∀ reason calls,
      done (.error reason) (before.called calls before.accelerator.pool)) :
    Ends (attempt (Accelerator.call method act)) before done failed := by
  unfold Ends attempt Accelerator.call
  simp only
  cases before.accelerator.faults method (before.accelerator.calls.get method) with
  | some reason => exact fails reason _
  | none =>
    cases acted : act before.accelerator.pool with
    | error reason => exact fails reason _
    | ok result => exact succeeds result.1 result.2 _ acted

omit [Arithmetic α] in
theorem ends_perform
    {β : Type}
    {method : Method}
    {act : Pool α → Except DeviceError (β × Pool α)}
    {done : β → Store α → Prop}
    {failed : Error → Store α → Prop}
    (succeeds : ∀ answer pool calls, act before.accelerator.pool = .ok (answer, pool) →
      done answer (before.called calls pool))
    (fails : ∀ reason calls,
      failed (Error.ofDevice reason) (before.called calls before.accelerator.pool)) :
    Ends (perform (Accelerator.call method act)) before done failed := by
  unfold perform
  rw [ends_bind_iff]
  exact ends_attempt succeeds fails

omit [Arithmetic α] in
/-- A change that follows an action in any case. -/
theorem ends_followedBy_iff
    {β : Type}
    {action : Action α β}
    {change : Store α → Store α}
    {done : β → Store α → Prop}
    {failed : Error → Store α → Prop} :
    Ends (action.followedBy change) before done failed ↔
      Ends action before (fun answer after => done answer (change after))
        (fun reason after => failed reason (change after)) := by
  unfold Ends Action.followedBy
  cases action before <;> rfl

omit [Arithmetic α] in
/-- A change that follows an action that failed. -/
theorem ends_unlessDone_iff
    {β : Type}
    {action : Action α β}
    {change : Store α → Store α}
    {done : β → Store α → Prop}
    {failed : Error → Store α → Prop} :
    Ends (action.unlessDone change) before done failed ↔
      Ends action before done (fun reason after => failed reason (change after)) := by
  unfold Ends Action.unlessDone
  cases action before <;> rfl

omit [Arithmetic α] in
theorem alike_called (store : Store α) (calls : CallCounts) :
    Alike store (store.called calls store.accelerator.pool) :=
  ⟨rfl, rfl, rfl, rfl⟩

omit [Arithmetic α] in
/-- A live buffer is found, with its claim and contents. -/
theorem ends_find
    {done : Buffer α → Store α → Prop}
    {failed : Error → Store α → Prop}
    (present : ∀ found, before.claim? buffer = some found.claim →
      before.contents? buffer = some found.contents → done found before)
    (absent : before.claim? buffer = none →
      failed (.inconsistency (.missingBuffer buffer)) before) :
    Ends (find buffer) before done failed := by
  unfold find
  rw [ends_bind_iff, ends_get_iff]
  cases held : before.buffers.get? buffer with
  | some found =>
    exact present found (by rw [claim?, held, Option.map_some])
      (by rw [contents?, held, Option.map_some])
  | none => exact absent (by rw [claim?, held, Option.map_none])

/-! ## Downloads and evictions -/

/-- Contents that are off the accelerator stay as they are. -/
def Retreats (before after : Store α) : Prop :=
  ∀ buffer contents, before.contents? buffer = some contents →
    (∀ block, contents ≠ .device block) → after.contents? buffer = some contents

omit [Arithmetic α] in
theorem Retreats.refl (store : Store α) : Retreats store store :=
  fun _ _ held _ => held

omit [Arithmetic α] in
theorem Retreats.trans
    {middle after : Store α}
    (first : Retreats before middle)
    (second : Retreats middle after) :
    Retreats before after :=
  fun buffer contents held off => second buffer contents (first buffer contents held off) off

omit [Arithmetic α] in
theorem Retreats.of_eq
    {after : Store α}
    (same : after.contents? = before.contents?) :
    Retreats before after := by
  intro buffer contents held _
  rw [same, held]

/-- Nobody leases the buffer. -/
def Idle (store : Store α) (buffer : BufferId) : Prop :=
  ∀ claim, store.claim? buffer = some claim → claim.leases = 0

theorem Frame.idle
    {written : Set BufferId}
    {after : Store α}
    (frame : Frame ∅ written before after)
    (idle : before.Idle buffer) :
    after.Idle buffer := by
  intro claim claimed
  rw [frame.claims buffer (Set.notMem_empty _)] at claimed
  exact idle claim claimed

/-- The values of an idle buffer are put on the host in place of its contents. -/
theorem frame_replace_host
    {store : Store α}
    (frame : Frame ∅ ∅ before store)
    (idle : before.Idle buffer)
    {claim : Claim}
    {contents : Contents α}
    {values : Array α}
    (claimed : before.claim? buffer = some claim)
    (held : store.contents? buffer = some contents)
    (size : values.size = claim.length)
    (reading : before.reading? buffer = some values) :
    Frame ∅ ∅ before (store.replace buffer (.host values)) ∧
      (∀ other, (store.replace buffer (.host values)).contents? other =
        if buffer = other then some (.host values) else store.contents? other) := by
  have still : store.claim? buffer = some claim := by
    rw [frame.claims buffer (Set.notMem_empty _), claimed]
  have same : store.reading? buffer = some values := by
    rw [frame.readings buffer (Set.notMem_empty _) (Set.notMem_empty _), reading]
  refine ⟨frame.trans_empty ?_, contents?_replace held⟩
  exact frame_replace_same frame.valid still (idle claim claimed) size (fun _ => nofun) same.symm

/-- A buffer is moved to the host, where it reads as before. -/
theorem ends_moveToHost
    (valid : before.Valid)
    (idle : before.Idle buffer) :
    Ends (moveToHost buffer) before
      (fun _ after => Frame ∅ ∅ before after ∧
        (before.contents? buffer ≠ some .empty → Retreats before after) ∧
        (∀ other, buffer ≠ other → after.contents? other = before.contents? other) ∧
        ∃ values, after.contents? buffer = some (.host values) ∧
          after.reading? buffer = some values)
      (fun _ after => Frame ∅ ∅ before after ∧ after.contents? = before.contents?) := by
  unfold moveToHost
  rw [ends_bind_iff]
  refine ends_find ?_ fun _ => ⟨Frame.refl valid, rfl⟩
  intro found claimed held
  have fits := valid.fits buffer _ _ claimed held
  have reading : before.reading? buffer =
      found.contents.values? before.accelerator.pool found.length := by
    rw [reading?_eq, claimed, held]
    rfl
  cases contents : found.contents with
  | host values =>
    rw [contents] at held reading
    exact ⟨Frame.refl valid, fun _ => Retreats.refl before, fun _ _ => rfl, values, held, reading⟩
  | empty =>
    rw [contents] at held reading
    obtain ⟨frame, replaced⟩ := frame_replace_host (Frame.refl valid) idle claimed held
      (size_zeros ..) reading
    have final := replaced buffer
    rw [if_pos rfl] at final
    refine ⟨frame, fun off => absurd held off, ?_, _, final, ?_⟩
    · intro other different
      exact (replaced other).trans (if_neg different)
    · exact (frame.readings buffer (Set.notMem_empty _) (Set.notMem_empty _)).trans reading
  | device block =>
    rw [contents] at held reading fits
    rw [ends_bind_iff]
    refine ends_perform ?_ fun reason calls =>
      ⟨(alike_called before calls).frame valid, rfl⟩
    intro values pool calls downloaded
    obtain ⟨live, size, counters, rfl⟩ := Pool.download_eq_ok downloaded
    have frame : Frame ∅ ∅ before
        (before.called calls { before.accelerator.pool with counters := counters }) := by
      have kept := frame_of_accelerator valid
        { before.accelerator with
          pool := { before.accelerator.pool with counters := counters }, calls := calls }
        (Pool.keeps_counters _ counters) valid.named
      rwa [behind_false] at kept
    have read : before.reading? buffer = some values := reading.trans live
    obtain ⟨frame, replaced⟩ := frame_replace_host frame idle claimed held size read
    have final := replaced buffer
    rw [if_pos rfl] at final
    refine ⟨frame, fun _ => ?_, ?_, _, final, ?_⟩
    · intro other kept present off
      by_cases same : buffer = other
      · subst same
        rw [held] at present
        cases present
        exact absurd rfl (off block)
      · rw [replaced other, if_neg same]
        exact present
    · intro other different
      rw [replaced other, if_neg different]
      rfl
    · rw [frame.readings buffer (Set.notMem_empty _) (Set.notMem_empty _), read]

/-- A buffer that may be evicted: nobody leases it and it is not empty. -/
structure Evictable (store : Store α) (buffer : BufferId) : Prop where
  idle : store.Idle buffer
  stored : store.contents? buffer ≠ some .empty

/-- An eviction is a move that answers zero where the move fails. -/
theorem ends_evict_iff
    {done : Nat → Store α → Prop}
    {failed : Error → Store α → Prop} :
    Ends (evict buffer) before done failed ↔
      Ends (do
        let found ← find buffer
        moveToHost buffer
        pure found.length : Action α Nat) before done (fun _ after => done 0 after) := by
  unfold Ends evict
  cases (do
    let found ← find buffer
    moveToHost buffer
    pure found.length : Action α Nat) before <;> rfl

theorem ends_evict
    (valid : before.Valid)
    (evictable : before.Evictable buffer) :
    Ends (evict buffer) before
      (fun _ after => Frame ∅ ∅ before after ∧ Retreats before after ∧
        ∀ other, before.Evictable other → after.Evictable other)
      (fun _ _ => False) := by
  have moved := ends_moveToHost valid evictable.idle
  rw [ends_evict_iff, ends_bind_iff]
  have failing : ∀ after : Store α, Frame ∅ ∅ before after ∧ after.contents? = before.contents? →
      Frame ∅ ∅ before after ∧ Retreats before after ∧
        ∀ other, before.Evictable other → after.Evictable other := by
    rintro after ⟨frame, same⟩
    refine ⟨frame, Retreats.of_eq same, fun other otherEvictable => ?_⟩
    exact ⟨frame.idle otherEvictable.idle, by rw [same]; exact otherEvictable.stored⟩
  refine ends_find ?_ fun _ => failing before ⟨Frame.refl valid, rfl⟩
  intro found _ _
  rw [ends_bind_iff]
  refine moved.mono ?_ fun _ after failed => failing after failed
  rintro _ after ⟨frame, retreats, others, values, final, -⟩
  refine ⟨frame, retreats evictable.stored, fun other otherEvictable => ?_⟩
  refine ⟨frame.idle otherEvictable.idle, ?_⟩
  by_cases same : buffer = other
  · rw [← same, final]
    nofun
  · rw [others other same]
    exact otherEvictable.stored

theorem ends_evictUntil
    (valid : before.Valid)
    (target freed : Nat)
    {buffers : List BufferId}
    (evictable : ∀ buffer ∈ buffers, before.Evictable buffer) :
    Ends (evictUntil target buffers freed) before
      (fun _ after => Frame ∅ ∅ before after ∧ Retreats before after)
      (fun _ _ => False) := by
  induction buffers generalizing before freed with
  | nil => exact ⟨Frame.refl valid, Retreats.refl before⟩
  | cons buffer buffers step =>
    rw [evictUntil]
    split
    · exact ⟨Frame.refl valid, Retreats.refl before⟩
    rw [ends_bind_iff]
    refine (ends_evict valid (evictable buffer List.mem_cons_self)).mono ?_
      fun _ _ impossible => impossible.elim
    rintro gained middle ⟨frame, retreats, kept⟩
    refine (step frame.valid (freed + gained) fun other member =>
      kept other (evictable other (List.mem_cons_of_mem _ member))).mono ?_
        fun _ _ impossible => impossible.elim
    rintro _ after ⟨later, laterRetreats⟩
    exact ⟨frame.trans_empty later, retreats.trans laterRetreats⟩

omit [Arithmetic α] in
theorem evictable_of_mem
    {device : Option DeviceId}
    (member : buffer ∈ before.evictable device) :
    before.Evictable buffer := by
  obtain ⟨⟨name, found⟩, inside, rfl⟩ := List.mem_map.1 member
  rw [List.mem_mergeSort, List.mem_filter, mem_registered] at inside
  obtain ⟨⟨-, present⟩, fit⟩ := inside
  simp only [Buffer.isEvictable, Bool.and_eq_true, beq_iff_eq] at fit
  obtain ⟨⟨-, idle⟩, onDevice⟩ := fit
  constructor
  · intro claim claimed
    rw [claim?, present] at claimed
    cases claimed
    exact idle
  · intro empty
    rw [contents?, present, Option.map_some, Option.some.injEq] at empty
    rw [empty] at onDevice
    cases onDevice

/-- Evictions keep all claims and readings. -/
theorem ends_offload
    (valid : before.Valid)
    (target : Nat)
    (device : Option DeviceId) :
    Ends (offload target device) before
      (fun _ after => Frame ∅ ∅ before after ∧ Retreats before after)
      (fun _ _ => False) := by
  unfold offload
  rw [ends_bind_iff, ends_get_iff]
  exact ends_evictUntil valid target 0 fun _ member => evictable_of_mem member

/-! ## Allocation and uploads -/

/-- A block of zeros of a given length that belongs to nobody yet. -/
structure Granted (store : Store α) (length : Nat) (block : Block) : Prop where
  fits : (Contents.device block : Contents α).Fits store.accelerator.pool length
  zeros : store.accelerator.pool.blocks.get? block.handle = some (zeros α length)
  unowned : store.Unowned block

/-- The accelerator is asked for a block. -/
theorem ends_attempt_allocate (valid : before.Valid) (length : Nat) :
    Ends (attempt (Accelerator.allocate length)) before
      (fun outcome after => Frame ∅ ∅ before after ∧ after.contents? = before.contents? ∧
        ∀ block, outcome = .ok block → after.Granted length block)
      (fun _ _ => False) := by
  refine ends_attempt ?_ fun reason calls =>
    ⟨(alike_called before calls).frame valid, rfl, nofun⟩
  intro block pool calls allocated
  obtain ⟨named, keeps, stillNamed, live⟩ := Pool.allocate_eq_ok valid.named allocated
  have frame := frame_of_accelerator valid
    { before.accelerator with pool := pool, calls := calls } keeps stillNamed
  rw [behind_false] at frame
  refine ⟨frame, rfl, ?_⟩
  rintro _ ⟨⟩
  refine ⟨⟨by rw [named], by rw [named]; exact keeps.id.symm, _, live, size_zeros ..⟩, live, ?_⟩
  intro other shared held same
  obtain ⟨claim, claimed⟩ := exists_claim held
  obtain ⟨-, -, values, found, -⟩ := valid.fits other claim _ claimed held
  have older := valid.named shared.handle values found
  rw [same, named] at older
  exact absurd older (Nat.lt_irrefl _)

/-- A new block, for which other buffers may be evicted. -/
theorem ends_allocateBlock (valid : before.Valid) (length : Nat) :
    Ends (allocateBlock length) before
      (fun block after => Frame ∅ ∅ before after ∧ Retreats before after ∧
        after.Granted length block)
      (fun _ after => Frame ∅ ∅ before after) := by
  unfold allocateBlock
  rw [ends_bind_iff]
  refine (ends_attempt_allocate valid length).mono ?_ fun _ _ impossible => impossible.elim
  rintro outcome middle ⟨frame, same, granted⟩
  match outcome with
  | .ok block => exact ⟨frame, Retreats.of_eq same, granted block rfl⟩
  | .error (.invalidBlock handle) => exact frame
  | .error (.lengthMismatch expected actual) => exact frame
  | .error (.fault reason) => exact frame
  | .error (.outOfMemory requested available) =>
    rw [ends_bind_iff, ends_get_iff, ends_bind_iff]
    refine (ends_offload frame.valid length _).mono ?_ fun _ _ impossible => impossible.elim
    rintro freed evicted ⟨offloaded, retreats⟩
    rw [ends_bind_iff]
    refine (ends_attempt_allocate offloaded.valid length).mono ?_
      fun _ _ impossible => impossible.elim
    rintro second after ⟨last, kept, granted⟩
    have whole := frame.trans_empty (offloaded.trans_empty last)
    match second with
    | .ok block =>
      exact ⟨whole, ((Retreats.of_eq same).trans retreats).trans (Retreats.of_eq kept),
        granted block rfl⟩
    | .error (.outOfMemory _ _) => exact whole
    | .error (.invalidBlock _) => exact whole
    | .error (.lengthMismatch _ _) => exact whole
    | .error (.fault _) => exact whole

/-- A buffer is on the accelerator. -/
def OnAccelerator (store : Store α) (buffer : BufferId) : Prop :=
  ∃ block, store.contents? buffer = some (.device block)

omit [Arithmetic α] in
theorem Unowned.of_eq
    {store after : Store α}
    {block : Block}
    (unowned : store.Unowned block)
    (same : after.contents? = store.contents?) :
    after.Unowned block := by
  intro other shared
  rw [same]
  exact unowned other shared

/-- A block that belongs to nobody takes the place of the contents that it has the values of. -/
theorem frame_replace_device
    {after : Store α}
    {claim : Claim}
    {contents : Contents α}
    {block : Block}
    {values : Array α}
    (frame : Frame ∅ ∅ before after)
    (claimed : before.claim? buffer = some claim)
    (idle : claim.leases = 0)
    (kept : after.contents? buffer = some contents)
    (fits : (Contents.device block : Contents α).Fits after.accelerator.pool claim.length)
    (unowned : after.Unowned block)
    (live : after.accelerator.pool.blocks.get? block.handle = some values)
    (reads : before.reading? buffer = some values) :
    Frame ∅ ∅ before (after.replace buffer (.device block)) ∧
      (after.replace buffer (.device block)).OnAccelerator buffer := by
  have still : after.claim? buffer = some claim := by
    rw [frame.claims buffer (Set.notMem_empty _), claimed]
  have same : after.reading? buffer = some values := by
    rw [frame.readings buffer (Set.notMem_empty _) (Set.notMem_empty _), reads]
  refine ⟨frame.trans_empty ?_, block, ?_⟩
  · refine frame_replace_same frame.valid still idle fits ?_ (live.trans same.symm)
    rintro _ ⟨⟩
    exact unowned
  · rw [contents?_replace kept, if_pos rfl]

/-- Values are written to a block that belongs to nobody. -/
theorem ends_upload
    {length : Nat}
    {block : Block}
    {values : Array α}
    (valid : before.Valid)
    (granted : before.Granted length block)
    (size : values.size = length) :
    Ends (perform (Accelerator.upload block values)) before
      (fun _ after => Frame ∅ ∅ before after ∧ after.contents? = before.contents? ∧
        (Contents.device block : Contents α).Fits after.accelerator.pool length ∧
        after.accelerator.pool.blocks.get? block.handle = some values)
      (fun _ after => Frame ∅ ∅ before after ∧ after.contents? = before.contents?) := by
  refine ends_perform ?_ fun reason calls => ⟨(alike_called before calls).frame valid, rfl⟩
  intro _ pool calls acted
  obtain ⟨next, done, same⟩ := map_eq_ok_iff.1 acted
  cases same
  obtain ⟨keeps, named, live⟩ := Pool.upload_eq_ok valid.named done
  have step := frame_of_accelerator valid
    { before.accelerator with pool := pool, calls := calls } keeps named
  rw [granted.unowned.behind] at step
  obtain ⟨long, device, -⟩ := granted.fits
  exact ⟨step, rfl, ⟨long, device.trans keeps.id.symm, values, live, size⟩, live⟩

/-- A buffer is moved to the accelerator, where it reads as before. -/
theorem ends_moveToAccelerator
    (valid : before.Valid)
    (idle : before.Idle buffer) :
    Ends (moveToAccelerator buffer) before
      (fun _ after => Frame ∅ ∅ before after ∧ after.OnAccelerator buffer)
      (fun _ after => Frame ∅ ∅ before after) := by
  unfold moveToAccelerator
  rw [ends_bind_iff]
  refine ends_find ?_ fun _ => Frame.refl valid
  intro found claimed held
  have fits := valid.fits buffer _ _ claimed held
  have reading : before.reading? buffer =
      found.contents.values? before.accelerator.pool found.length := by
    rw [reading?_eq, claimed, held]
    rfl
  cases contents : found.contents with
  | device block =>
    rw [contents] at held
    exact ⟨Frame.refl valid, block, held⟩
  | empty =>
    rw [contents] at held reading
    rw [ends_bind_iff]
    refine (ends_allocateBlock valid found.length).mono ?_ fun _ _ frame => frame
    rintro block middle ⟨frame, retreats, granted⟩
    exact frame_replace_device frame claimed (idle _ claimed)
      (retreats buffer _ held fun _ => nofun) granted.fits granted.unowned granted.zeros reading
  | host values =>
    rw [contents] at held reading fits
    rw [ends_bind_iff]
    refine (ends_allocateBlock valid found.length).mono ?_ fun _ _ frame => frame
    rintro block middle ⟨frame, retreats, granted⟩
    have kept := retreats buffer _ held fun _ => nofun
    rw [ends_bind_iff, ends_unlessDone_iff]
    refine (ends_upload frame.valid granted fits).mono ?_ ?_
    · rintro _ after ⟨step, same, blockFits, live⟩
      exact frame_replace_device (frame.trans_empty step) claimed (idle _ claimed)
        ((congrFun same buffer).trans kept) blockFits (granted.unowned.of_eq same) live reading
    · rintro _ after ⟨step, same⟩
      exact frame.trans_empty
        (step.trans_empty (frame_free step.valid (granted.unowned.of_eq same)))

/-! ## Moving to any tier -/

/-- A buffer whose contents are given up reads as zeros. -/
theorem frame_replace_empty
    (valid : before.Valid)
    {claim : Claim}
    (claimed : before.claim? buffer = some claim)
    (idle : claim.leases = 0) :
    Frame ∅ {buffer} before (before.replace buffer .empty) ∧
      (before.replace buffer .empty).reading? buffer = some (zeros α claim.length) :=
  frame_replace valid claimed idle trivial fun _ => nofun

/-- A move to a tier that holds values keeps every reading. -/
theorem ends_move
    (valid : before.Valid)
    (idle : before.Idle buffer)
    {tier : Tier}
    (stored : tier ≠ .empty) :
    Ends (move buffer tier) before
      (fun _ after => Frame ∅ ∅ before after ∧
        ∃ contents, after.contents? buffer = some contents ∧ contents.tier = tier)
      (fun _ after => Frame ∅ ∅ before after) := by
  cases tier with
  | empty => exact absurd rfl stored
  | host =>
    refine (ends_moveToHost valid idle).mono ?_ fun _ _ failed => failed.1
    rintro _ after ⟨frame, -, -, values, final, -⟩
    exact ⟨frame, .host values, final, rfl⟩
  | accelerator =>
    refine (ends_moveToAccelerator valid idle).mono ?_ fun _ _ frame => frame
    rintro _ after ⟨frame, block, final⟩
    exact ⟨frame, .device block, final, rfl⟩

end Elementwise.Store
