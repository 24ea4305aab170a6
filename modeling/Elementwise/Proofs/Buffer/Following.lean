import Elementwise.Proofs.Buffer.Room
import Elementwise.Proofs.Following

/-!
# Accesses that end as others do

Whether a buffer can be leased depends on the leases that stand.  If the buffer is
leased already, it has to be on the right tier; if not, it has to fit on the
accelerator beside what is leased there.  On an accelerator that never fails,
nothing else counts, since all buffers that nobody leases can be moved off.

So in two stores whose leased buffers are as long and in the same places, an action
succeeds in the second one if it does in the first one, and is refused for the same
cause if it is refused there, wherever all other buffers are.
-/

namespace Elementwise.Store

variable
    {α β γ : Type}
    [Arithmetic α]
    {make : Make}
    {before left right : Store α}
    {buffer other : BufferId}

/-! ## What a lease needs -/

/-- Nobody leases the buffer, or it is on the tier already. -/
def Admits (store : Store α) (buffer : BufferId) (tier : Tier) : Prop :=
  store.leasesOf buffer = 0 ∨ store.OnTier buffer tier

/-- The elements that a lease on the accelerator adds to those that are leased there. -/
def need (store : Store α) (buffer : BufferId) : Nat :=
  if store.leasesOf buffer = 0 then store.lengthOf buffer else 0

omit [Arithmetic α] in
theorem leasesOf_of_claim
    {claim : Claim}
    (claimed : before.claim? buffer = some claim) :
    before.leasesOf buffer = claim.leases := by
  rw [leasesOf, claimed, Option.elim_some]

omit [Arithmetic α] in
theorem leasesOf_absent (absent : before.claim? buffer = none) : before.leasesOf buffer = 0 := by
  rw [leasesOf, absent, Option.elim_none]

omit [Arithmetic α] in
theorem leasesOf_pin
    {claim : Claim}
    (claimed : before.claim? buffer = some claim)
    (other : BufferId) :
    (before.pin buffer).leasesOf other =
      before.leasesOf other + if other = buffer then 1 else 0 := by
  by_cases same : other = buffer
  · subst same
    rw [if_pos rfl, leasesOf, claim?_pin, if_pos rfl, leasesOf, claimed]
    rfl
  · rw [if_neg same, leasesOf, claim?_pin, if_neg (Ne.symm same), leasesOf, Nat.add_zero]

omit [Arithmetic α] in
theorem resident_pin : (before.pin buffer).resident = before.resident := by
  ext other
  simp only [mem_resident_iff, pin, Table.get?_modify]
  split
  · cases before.buffers.get? other <;> simp
  · rfl

omit [Arithmetic α] in
/-- A buffer that is leased for the first time counts from then on. -/
theorem pinnedExtent_pin
    {claim : Claim}
    (claimed : before.claim? buffer = some claim)
    (there : buffer ∈ before.resident) :
    (before.pin buffer).pinnedExtent = before.pinnedExtent + before.need buffer := by
  unfold pinnedExtent need
  simp only [resident_pin, lengthOf_pin, leasesOf_pin claimed]
  by_cases idle : before.leasesOf buffer = 0
  · have more : before.resident.filter
        (fun other => 0 < before.leasesOf other + if other = buffer then 1 else 0) =
          insert buffer (before.resident.filter fun other => 0 < before.leasesOf other) := by
      ext other
      rw [Finset.mem_insert, Finset.mem_filter, Finset.mem_filter]
      by_cases same : other = buffer
      · subst same
        simp [there]
      · simp [same]
    rw [if_pos idle, more, Finset.sum_insert (by simp [idle]), Nat.add_comm]
  · rw [if_neg idle, Nat.add_zero]
    refine Finset.sum_congr (Finset.filter_congr fun other _ => ?_) fun _ _ => rfl
    by_cases same : other = buffer
    · subst same
      simp [Nat.pos_of_ne_zero idle]
    · simp [same]

omit [Arithmetic α] in
/-- The books were right before a lease if they are after it. -/
theorem Accounted.of_pin
    {others : Others α}
    (accounted : (before.pin buffer).Accounted make others)
    (valid : before.Valid) :
    before.Accounted make others := by
  have location : (before.pin buffer).location? = before.location? :=
    location?_modify before.clock _ fun _ => rfl
  exact accounted.of_contents valid contents?_pin.symm location.symm rfl rfl rfl

omit [Arithmetic α] in
theorem Accounted.within (accounted : before.Accounted make ∅) :
    before.Within make fun buffer _ => before.leasesOf buffer :=
  ⟨accounted, fun _ _ claimed => Nat.le_of_eq (leasesOf_of_claim claimed).symm⟩

/-- A leased buffer can be leased once more just on the tier where it is. -/
theorem ends_lease_admits
    {tier : Tier}
    (stored : tier ≠ .empty)
    (live : ∃ claim, before.claim? buffer = some claim) :
    Ends (lease buffer tier) before (fun _ _ => before.Admits buffer tier)
      (fun reason _ => before.leasesOf buffer = 0 ∨
        ¬ before.OnTier buffer tier ∧ reason = .bufferBusy buffer) := by
  have alike := alike_touch before buffer
  unfold lease
  rw [if_neg stored, ends_bind_iff, ends_modify_iff, ends_bind_iff]
  refine ends_find ?_ fun absent => ?_
  · intro found claimed held
    rw [alike.claim?] at claimed
    rw [alike.contents?] at held
    by_cases there : found.tier = tier
    · rw [if_neg (not_not_intro there)]
      exact .inr ⟨found.contents, held, there⟩
    · rw [if_pos there]
      by_cases leased : 0 < found.leases
      · rw [if_pos leased]
        refine .inr ⟨?_, rfl⟩
        rintro ⟨contents, again, onTier⟩
        rw [held] at again
        cases again
        exact there onTier
      · have idle : before.leasesOf buffer = 0 :=
          (leasesOf_of_claim claimed).trans (Nat.eq_zero_of_not_pos leased)
        rw [if_neg leased]
        exact (ends_of_holds idle idle).mono (fun _ _ idle => .inl idle) fun _ _ idle => .inl idle
  · obtain ⟨claim, claimed⟩ := live
    rw [alike.claim?, claimed] at absent
    cases absent

/-- What is leased on the accelerator counts from then on. -/
theorem ends_lease_extent
    (accounted : before.Accounted make ∅)
    (live : ∃ claim, before.claim? buffer = some claim) :
    Ends (lease buffer .accelerator) before
      (fun _ after => before.Admits buffer .accelerator ∧ after.Accounted make ∅ ∧
        after.pinnedExtent = before.pinnedExtent + before.need buffer ∧
        ∃ middle, Frame ∅ ∅ before middle ∧ middle.OnTier buffer .accelerator ∧
          after = middle.pin buffer)
      (fun _ _ => True) := by
  refine ((ends_lease_admits (by decide) live).and
    ((accounted_lease before accounted).and (ends_lease accounted.valid))).mono ?_
      fun _ _ _ => trivial
  rintro _ _ ⟨admits, books, middle, frame, onTier, rfl⟩
  obtain ⟨claim, claimed⟩ := live
  have still : middle.claim? buffer = some claim := by
    rw [frame.claims buffer (Set.notMem_empty _), claimed]
  have there : buffer ∈ (middle.pin buffer).resident :=
    books.mem_resident_iff_onAccelerator.2 (onAccelerator_pin onTier)
  have needs : middle.need buffer = before.need buffer := by
    rw [need, need, leasesOf_frame frame (Set.notMem_empty _),
      lengthOf_frame frame (Set.notMem_empty _)]
  refine ⟨admits, books, ?_, middle, frame, onTier, rfl⟩
  rw [pinnedExtent_pin still (resident_pin ▸ there), needs,
    pinnedExtent_still accounted (books.of_pin frame.valid) frame]

/-- Why a lease on the accelerator is refused. -/
inductive Refused (make : Make) (store : Store α) (buffer : BufferId) : Error → Prop where
  | busy
      (leased : 0 < store.leasesOf buffer)
      (elsewhere : ¬ store.OnTier buffer .accelerator) :
      Refused make store buffer (.bufferBusy buffer)
  | full
      {reason : Error}
      (admits : store.Admits buffer .accelerator)
      (exhausted : Exhausted make.capacity (store.pinnedExtent + store.need buffer)
        (store.lengthOf buffer) reason) :
      Refused make store buffer reason

omit [Arithmetic α] in
/-- A buffer that can have the lease on its own account is refused only for lack of room. -/
theorem Refused.exhausted
    {reason : Error}
    (refused : before.Refused make buffer reason)
    (admits : before.Admits buffer .accelerator) :
    Exhausted make.capacity (before.pinnedExtent + before.need buffer) (before.lengthOf buffer)
      reason := by
  cases refused with
  | busy leased elsewhere =>
    exact (admits.elim (fun idle => Nat.ne_of_gt leased idle) elsewhere).elim
  | full _ exhausted => exact exhausted

/-- A buffer is refused on the accelerator only on its own account or if it does not fit. -/
theorem ends_lease_needs
    (steady : make.Steady)
    (accounted : before.Accounted make ∅)
    (live : ∃ claim, before.claim? buffer = some claim) :
    Ends (lease buffer .accelerator) before
      (fun _ after => before.Admits buffer .accelerator ∧ after.Accounted make ∅ ∧
        after.pinnedExtent = before.pinnedExtent + before.need buffer ∧
        ∃ middle, Frame ∅ ∅ before middle ∧ middle.OnTier buffer .accelerator ∧
          after = middle.pin buffer)
      (fun reason _ => before.Refused make buffer reason) := by
  by_cases idle : before.leasesOf buffer = 0
  · obtain ⟨claim, claimed⟩ := live
    have alike := alike_touch before buffer
    have touched : (before.touch buffer).Accounted make ∅ := accounted.touch
    have moved := ends_moveToAccelerator_full steady touched.within
      (by rw [alike.claim?]; exact claimed)
    have same := pinnedExtent_still accounted touched (alike.frame accounted.valid)
    have length : before.lengthOf buffer = claim.length := by
      rw [lengthOf, claimed, Option.elim_some]
    have needs : before.need buffer = claim.length := by rw [need, if_pos idle, length]
    rw [same, ← needs] at moved
    have refused : Ends (lease buffer .accelerator) before (fun _ _ => True)
        (fun reason _ => before.Refused make buffer reason) :=
      ends_lease_of_free (by decide) ⟨claim, claimed, leasesOf_of_claim claimed ▸ idle⟩
        (moved.mono (fun _ _ done => done) fun _ _ exhausted =>
          .full (.inl idle) (by rwa [length, ← needs]))
    exact ((ends_lease_extent accounted ⟨claim, claimed⟩).and refused).mono
      (fun _ _ done => done.1) fun _ _ failed => failed.2
  · refine ((ends_lease_extent accounted live).and (ends_lease_admits (by decide) live)).mono
      (fun _ _ done => done.1) ?_
    rintro _ _ ⟨-, refused⟩
    obtain ⟨elsewhere, rfl⟩ := refused.resolve_left idle
    exact .busy (Nat.pos_of_ne_zero idle) elsewhere

/-! ## Buffers that stand for each other -/

/-- What is leased on the accelerator takes up as much in both stores. -/
structure Level (make : Make) (left right : Store α) : Prop where
  accounted : left.Accounted make ∅
  accountedOther : right.Accounted make ∅
  extent : right.pinnedExtent = left.pinnedExtent

/-- Steps that leave the leases alone, but for buffers that they make and that nobody leases. -/
theorem Level.step
    {after afterwards : Store α}
    {made madeOther written writtenOther : Set BufferId}
    (level : Level make left right)
    (accounted : after.Accounted make ∅)
    (accountedOther : afterwards.Accounted make ∅)
    (frame : Frame made written left after)
    (frameOther : Frame madeOther writtenOther right afterwards)
    (unleased : ∀ buffer ∈ made, left.leasesOf buffer = 0 ∧ after.leasesOf buffer = 0)
    (unleasedOther : ∀ buffer ∈ madeOther,
      right.leasesOf buffer = 0 ∧ afterwards.leasesOf buffer = 0) :
    Level make after afterwards where
  accounted := accounted
  accountedOther := accountedOther
  extent := by
    rw [pinnedExtent_frame level.accounted accounted frame unleased,
      pinnedExtent_frame level.accountedOther accountedOther frameOther unleasedOther, level.extent]

/-- Two buffers are as long and leased as often, and if they are leased, one and the same. -/
def Corresponds (left right : Store α) (buffer other : BufferId) : Prop :=
  ∃ claim, left.claim? buffer = some claim ∧ right.claim? other = some claim ∧
    (0 < claim.leases → other = buffer ∧ right.contents? other = left.contents? buffer)

namespace Corresponds

variable (same : Corresponds left right buffer other)

include same

omit [Arithmetic α] in
theorem symm : Corresponds right left other buffer := by
  obtain ⟨claim, claimed, claimedOther, stays⟩ := same
  exact ⟨claim, claimedOther, claimed, fun leased => ⟨(stays leased).1.symm, (stays leased).2.symm⟩⟩

omit [Arithmetic α] in
theorem leasesOf : right.leasesOf other = left.leasesOf buffer := by
  obtain ⟨claim, claimed, claimedOther, -⟩ := same
  rw [leasesOf_of_claim claimed, leasesOf_of_claim claimedOther]

omit [Arithmetic α] in
theorem lengthOf : right.lengthOf other = left.lengthOf buffer := by
  obtain ⟨claim, claimed, claimedOther, -⟩ := same
  rw [Store.lengthOf, claimedOther, Store.lengthOf, claimed]

omit [Arithmetic α] in
theorem need : right.need other = left.need buffer := by
  rw [Store.need, same.leasesOf, same.lengthOf, Store.need]

omit [Arithmetic α] in
/-- A leased buffer corresponds to itself, and is in the same place. -/
theorem of_positive
    (leased : 0 < left.leasesOf buffer) :
    other = buffer ∧ right.contents? other = left.contents? buffer := by
  obtain ⟨claim, claimed, -, stays⟩ := same
  rw [leasesOf_of_claim claimed] at leased
  exact stays leased

omit [Arithmetic α] in
theorem admits
    {tier : Tier}
    (admitted : left.Admits buffer tier) :
    right.Admits other tier := by
  by_cases idle : left.leasesOf buffer = 0
  · exact .inl (same.leasesOf.trans idle)
  · obtain ⟨contents, held, onTier⟩ := admitted.resolve_left idle
    have stays := (same.of_positive (Nat.pos_of_ne_zero idle)).2
    exact .inr ⟨contents, stays.trans held, onTier⟩

omit [Arithmetic α] in
theorem free (unleased : left.Free buffer) : right.Free other := by
  obtain ⟨claim, claimed, claimedOther, -⟩ := same
  obtain ⟨held, again, unleased⟩ := unleased
  rw [claimed] at again
  cases again
  exact ⟨claim, claimedOther, unleased⟩

/-- Leases on others make no difference. -/
theorem of_leased
    {inside insideOther : Store α}
    {buffers others : List BufferId}
    (leased : Leased buffers left inside)
    (leasedOther : Leased others right insideOther)
    (apart : buffer ∉ buffers)
    (apartOther : other ∉ others) :
    Corresponds inside insideOther buffer other := by
  obtain ⟨claim, claimed, claimedOther, stays⟩ := same
  refine ⟨claim, ?_, ?_, fun positive => ⟨(stays positive).1, ?_⟩⟩
  · rw [leased.claims, claimed, List.count_eq_zero_of_not_mem apart]
    rfl
  · rw [leasedOther.claims, claimedOther, List.count_eq_zero_of_not_mem apartOther]
    rfl
  · rw [leasedOther.pinned other claim claimedOther positive,
      leased.pinned buffer claim claimed positive, (stays positive).2]

theorem of_pin
    {middle middleOther : Store α}
    {first firstOther : BufferId}
    (frame : Frame ∅ ∅ left middle)
    (frameOther : Frame ∅ ∅ right middleOther)
    (different : first ≠ buffer)
    (differentOther : firstOther ≠ other) :
    Corresponds (middle.pin first) (middleOther.pin firstOther) buffer other := by
  obtain ⟨claim, claimed, claimedOther, stays⟩ := same
  refine ⟨claim, ?_, ?_, fun positive => ⟨(stays positive).1, ?_⟩⟩
  · rw [claim?_pin, if_neg different, frame.claims buffer (Set.notMem_empty _), claimed]
  · rw [claim?_pin, if_neg differentOther, frameOther.claims other (Set.notMem_empty _),
      claimedOther]
  · rw [contents?_pin, contents?_pin,
      frameOther.pinned other claim (Set.notMem_empty _) claimedOther positive,
      frame.pinned buffer claim (Set.notMem_empty _) claimed positive, (stays positive).2]

end Corresponds

/-- No lease begins when a claim is taken back. -/
theorem leasesOf_reclaim_le
    {store : Store α}
    {change : Buffer α → Buffer α}
    {revise : Claim → Claim}
    (revises : Revises change revise)
    (fewer : ∀ claim, (revise claim).leases ≤ claim.leases)
    (buffer other : BufferId) :
    ((store.revised buffer change).reclaim buffer).leasesOf other ≤ store.leasesOf other := by
  cases claimed : ((store.revised buffer change).reclaim buffer).claim? other with
  | none =>
    rw [leasesOf_absent claimed]
    exact Nat.zero_le _
  | some claim =>
    obtain ⟨old, present, rfl⟩ := exists_claim_of_reclaim revises claimed
    rw [leasesOf_of_claim claimed, leasesOf_of_claim present]
    split
    · exact fewer old
    · exact Nat.le_refl _

theorem leasesOf_unpin_le (store : Store α) (buffer other : BufferId) :
    (store.unpin buffer).leasesOf other ≤ store.leasesOf other :=
  leasesOf_reclaim_le revises_unpin (fun _ => Nat.sub_le ..) buffer other

theorem leasesOf_drop_le (store : Store α) (buffer other : BufferId) :
    (store.drop buffer).leasesOf other ≤ store.leasesOf other :=
  leasesOf_reclaim_le revises_drop (fun _ => Nat.le_refl _) buffer other

/-- One store has the buffers of another, and maybe more that nobody leases. -/
structure Includes (left right : Store α) : Prop where
  claims : ∀ buffer claim, left.claim? buffer = some claim → right.claim? buffer = some claim
  unleased : ∀ buffer, left.claim? buffer = none → right.leasesOf buffer = 0
  stays : ∀ buffer claim, left.claim? buffer = some claim → 0 < claim.leases →
    right.contents? buffer = left.contents? buffer

namespace Includes

omit [Arithmetic α] in
theorem refl (store : Store α) : store.Includes store where
  claims _ _ claimed := claimed
  unleased _ absent := leasesOf_absent absent
  stays _ _ _ _ := rfl

variable (includes : left.Includes right)

include includes

omit [Arithmetic α] in
theorem corresponds
    {claim : Claim}
    (claimed : left.claim? buffer = some claim) :
    Corresponds left right buffer buffer :=
  ⟨claim, claimed, includes.claims buffer claim claimed, fun leased =>
    ⟨rfl, includes.stays buffer claim claimed leased⟩⟩

omit [Arithmetic α] in
/-- A buffer stands for itself in two stores that include one that has it. -/
theorem corresponds_both
    {store : Store α}
    {claim : Claim}
    (also : left.Includes store)
    (claimed : left.claim? buffer = some claim) :
    Corresponds right store buffer buffer :=
  ⟨claim, includes.claims buffer claim claimed, also.claims buffer claim claimed, fun leased =>
    ⟨rfl, (also.stays buffer claim claimed leased).trans
      (includes.stays buffer claim claimed leased).symm⟩⟩

omit [Arithmetic α] in
theorem leasesOf (buffer : BufferId) : right.leasesOf buffer = left.leasesOf buffer := by
  cases claimed : left.claim? buffer with
  | none => rw [includes.unleased buffer claimed, leasesOf_absent claimed]
  | some claim => exact (includes.corresponds claimed).leasesOf

omit [Arithmetic α] in
theorem trans
    {store : Store α}
    (later : right.Includes store) :
    left.Includes store where
  claims buffer claim claimed := later.claims buffer claim (includes.claims buffer claim claimed)
  unleased buffer absent := by rw [later.leasesOf, includes.unleased buffer absent]
  stays buffer claim claimed leased := by
    rw [later.stays buffer claim (includes.claims buffer claim claimed) leased,
      includes.stays buffer claim claimed leased]

omit [Arithmetic α] in
theorem level
    (accounted : left.Accounted make ∅)
    (accountedOther : right.Accounted make ∅) :
    Level make left right where
  accounted := accounted
  accountedOther := accountedOther
  extent := by
    refine pinnedExtent_congr accounted accountedOther includes.leasesOf fun buffer leased => ?_
    obtain ⟨claim, claimed, positive⟩ := exists_claim_of_leased leased
    refine ⟨?_, (includes.corresponds claimed).lengthOf⟩
    rw [OnAccelerator, OnAccelerator, includes.stays buffer claim claimed positive]

/-- The larger store changes, and may get more buffers that nobody leases. -/
theorem step
    {after : Store α}
    {made written : Set BufferId}
    (frame : Frame made written right after)
    (new : ∀ buffer ∈ made, right.claim? buffer = none ∧ after.leasesOf buffer = 0) :
    left.Includes after where
  claims buffer claim claimed := by
    have present := includes.claims buffer claim claimed
    rw [frame.claims buffer, present]
    intro member
    rw [(new buffer member).1] at present
    cases present
  unleased buffer absent := by
    by_cases member : buffer ∈ made
    · exact (new buffer member).2
    · rw [leasesOf_frame frame member, includes.unleased buffer absent]
  stays buffer claim claimed positive := by
    have present := includes.claims buffer claim claimed
    rw [frame.pinned buffer claim ?_ present positive, includes.stays buffer claim claimed positive]
    intro member
    rw [(new buffer member).1] at present
    cases present

/-- Both stores change, but for their claims. -/
theorem still
    {before after : Store α}
    {written writtenOther : Set BufferId}
    (frame : Frame ∅ written left before)
    (frameOther : Frame ∅ writtenOther right after) :
    before.Includes after where
  claims buffer claim claimed := by
    rw [frame.claims buffer (Set.notMem_empty _)] at claimed
    rw [frameOther.claims buffer (Set.notMem_empty _), includes.claims buffer claim claimed]
  unleased buffer absent := by
    rw [frame.claims buffer (Set.notMem_empty _)] at absent
    rw [leasesOf_frame frameOther (Set.notMem_empty _), includes.unleased buffer absent]
  stays buffer claim claimed positive := by
    rw [frame.claims buffer (Set.notMem_empty _)] at claimed
    have present := includes.claims buffer claim claimed
    rw [frameOther.pinned buffer claim (Set.notMem_empty _) present positive,
      frame.pinned buffer claim (Set.notMem_empty _) claimed positive,
      includes.stays buffer claim claimed positive]

/-- A claim is taken back in both stores. -/
theorem reclaim
    {change : Buffer α → Buffer α}
    {revise : Claim → Claim}
    (valid : left.Valid)
    (validOther : right.Valid)
    (revises : Revises change revise)
    (fewer : ∀ claim, (revise claim).leases ≤ claim.leases)
    (buffer : BufferId) :
    ((left.revised buffer change).reclaim buffer).Includes
      ((right.revised buffer change).reclaim buffer) := by
  have frame : Frame {buffer} ∅ left ((left.revised buffer change).reclaim buffer) :=
    frame_reclaim_only valid revises
  have frameOther : Frame {buffer} ∅ right ((right.revised buffer change).reclaim buffer) :=
    frame_reclaim_only validOther revises
  -- a buffer of the smaller store has the same claim in both, before and after
  have same : ∀ claim, left.claim? buffer = some claim →
      ((right.revised buffer change).reclaim buffer).claim? buffer =
        ((left.revised buffer change).reclaim buffer).claim? buffer := fun claim claimed =>
    (frame_reclaim validOther revises (includes.claims buffer claim claimed)).2.trans
      (frame_reclaim valid revises claimed).2.symm
  refine ⟨fun other claim claimed => ?_, fun other absent => ?_,
    fun other claim claimed positive => ?_⟩
  · by_cases isBuffer : other = buffer
    · subst isBuffer
      obtain ⟨old, present, -⟩ := exists_claim_of_reclaim revises claimed
      rw [same old present, claimed]
    · rw [frame.claims other isBuffer] at claimed
      rw [frameOther.claims other isBuffer, includes.claims other claim claimed]
  · by_cases isBuffer : other = buffer
    · subst isBuffer
      cases present : left.claim? other with
      | some old => exact leasesOf_absent ((same old present).trans absent)
      | none =>
        have unleased : ((right.revised other change).reclaim other).leasesOf other ≤
            right.leasesOf other := leasesOf_reclaim_le revises fewer other other
        exact Nat.eq_zero_of_le_zero (includes.unleased other present ▸ unleased)
    · rw [frame.claims other isBuffer] at absent
      rw [leasesOf_frame frameOther isBuffer, includes.unleased other absent]
  · by_cases isBuffer : other = buffer
    · subst isBuffer
      obtain ⟨old, present, revised⟩ := exists_claim_of_reclaim revises claimed
      rw [if_pos rfl] at revised
      subst revised
      have wanted : (revise old).Wanted := .inr positive
      rw [(contents?_reclaim revises (includes.claims other old present) wanted).1,
        (contents?_reclaim revises present wanted).1,
        includes.stays other old present (Nat.lt_of_lt_of_le positive (fewer old))]
    · rw [frame.claims other isBuffer] at claimed
      have present := includes.claims other claim claimed
      rw [frameOther.pinned other claim isBuffer present positive,
        frame.pinned other claim isBuffer claimed positive,
        includes.stays other claim claimed positive]

theorem unpin
    (valid : left.Valid)
    (validOther : right.Valid)
    (buffer : BufferId) :
    (left.unpin buffer).Includes (right.unpin buffer) :=
  includes.reclaim valid validOther revises_unpin (fun _ => Nat.sub_le ..) buffer

theorem drop
    (valid : left.Valid)
    (validOther : right.Valid)
    (buffer : BufferId) :
    (left.drop buffer).Includes (right.drop buffer) :=
  includes.reclaim valid validOther revises_drop (fun _ => Nat.le_refl _) buffer

end Includes

/-! ## Accelerators that have recovered -/

omit [Arithmetic α] in
/-- The same store on an accelerator that does not fail any more. -/
def healed (store : Store α) : Store α :=
  { store with accelerator.faults := fun _ _ => none }

omit [Arithmetic α] in
theorem alike_healed (store : Store α) : store.Alike store.healed :=
  ⟨rfl, rfl, rfl, rfl⟩

omit [Arithmetic α] in
theorem Accounted.healed
    {others : Others α}
    (accounted : before.Accounted make others) :
    before.healed.Accounted { make with faults := fun _ _ => none } others where
  valid := (alike_healed before).valid accounted.valid
  counted := accounted.counted
  made := congrArg (fun make : Make => { make with faults := fun _ _ => none }) accounted.made
  placed := accounted.placed
  held := accounted.held
  apart := accounted.apart
  located := accounted.located
  listed := accounted.listed
  distinct := accounted.distinct
  older := accounted.older

/-! ## Leases -/

section

variable
    {first : Action α β}
    {second : Action α γ}
    {done : β → γ → Store α → Store α → Prop}

omit [Arithmetic α] in
theorem follows_followedBy
    {change changeOther : Store α → Store α}
    (follows : Follows first second left right fun answer other after afterwards =>
      done answer other (change after) (changeOther afterwards)) :
    Follows (first.followedBy change) (second.followedBy changeOther) left right done := by
  have meet := follows.meet
  refine inStep_of_meet ?_
  unfold Action.followedBy
  cases ran : first left <;> cases ranOther : second right <;> rw [ran, ranOther] at meet <;>
    exact meet

omit [Arithmetic α] in
theorem follows_unlessDone
    {change changeOther : Store α → Store α}
    (follows : Follows first second left right done) :
    Follows (first.unlessDone change) (second.unlessDone changeOther) left right done := by
  have meet := follows.meet
  refine inStep_of_meet ?_
  unfold Action.unlessDone
  cases ran : first left <;> cases ranOther : second right <;> rw [ran, ranOther] at meet <;>
    exact meet

end

section

variable
    (steady : make.Steady)
    (level : Level make left right)

include steady level

/-- A buffer can be leased just where a corresponding one can. -/
theorem follows_lease
    (same : Corresponds left right buffer other) :
    Follows (lease buffer .accelerator) (lease other .accelerator) left right
      fun _ _ after afterwards => Level make after afterwards ∧
        (∃ middle, Frame ∅ ∅ left middle ∧ middle.OnTier buffer .accelerator ∧
          after = middle.pin buffer) ∧
        ∃ middle, Frame ∅ ∅ right middle ∧ middle.OnTier other .accelerator ∧
          afterwards = middle.pin other := by
  have live := same
  obtain ⟨claim, claimed, claimedOther, -⟩ := live
  have sums : right.pinnedExtent + right.need other = left.pinnedExtent + left.need buffer := by
    rw [level.extent, same.need]
  refine follows_of_ends (ends_lease_needs steady level.accounted ⟨claim, claimed⟩) ?_ ?_
  · rintro _ after ⟨admits, books, extent, leased⟩
    refine (ends_lease_needs steady level.accountedOther ⟨claim, claimedOther⟩).mono ?_ ?_
    · rintro _ afterwards ⟨-, booksOther, extentOther, leasedOther⟩
      exact ⟨⟨books, booksOther, by rw [extentOther, extent, sums]⟩, leased, leasedOther⟩
    · intro _ _ refused
      have fits := books.within.pinnedExtent_le_capacity
      have exceeds := (refused.exhausted (same.admits admits)).exceeds
      omega
  · intro reason _ refused
    refine (ends_lease_needs steady level.accountedOther ⟨claim, claimedOther⟩).mono ?_ ?_
    · rintro _ afterwards ⟨admits, booksOther, extentOther, -⟩
      have fits := booksOther.within.pinnedExtent_le_capacity
      have exceeds := (refused.exhausted (same.symm.admits admits)).exceeds
      omega
    · intro again _ refusedOther
      cases refused with
      | busy leased elsewhere =>
        cases refusedOther with
        | busy => rw [(same.of_positive leased).1]
        | full admits =>
          exact ((same.symm.admits admits).elim (fun idle => Nat.ne_of_gt leased idle)
            elsewhere).elim
      | full admits exhausted =>
        obtain ⟨freed, rfl⟩ := exhausted.requested
        obtain ⟨freedOther, rfl⟩ := (refusedOther.exhausted (same.admits admits)).requested
        rw [same.lengthOf]
        rfl

section

variable
    {buffers others : List BufferId}
    {first : Action α β}
    {second : Action α γ}
    (result : β → γ → Prop)
    (run : ∀ inside insideOther, Leased buffers left inside → Leased others right insideOther →
      Level make inside insideOther →
      Follows first second inside insideOther fun answer other _ _ => result answer other)

include run

/-- An action under leases follows another one under leases of corresponding buffers. -/
theorem follows_withLeasesInOrder
    (distinct : buffers.Nodup)
    (distinctOther : others.Nodup)
    (same : List.Forall₂ (Corresponds left right) buffers others) :
    Follows (withLeasesInOrder buffers first) (withLeasesInOrder others second) left right
      fun answer other _ _ => result answer other := by
  induction buffers generalizing left right others with
  | nil =>
    cases same
    exact run left right (.refl level.accounted.valid) (.refl level.accountedOther.valid) level
  | cons buffer buffers step =>
    obtain ⟨other, others, here, rest, rfl⟩ := List.forall₂_cons_left_iff.1 same
    obtain ⟨isNew, distinct⟩ := List.nodup_cons.1 distinct
    obtain ⟨isNewOther, distinctOther⟩ := List.nodup_cons.1 distinctOther
    refine follows_bind ((follows_lease steady level here).mono ?_)
    rintro _ _ _ _ ⟨inner, ⟨middle, frame, onTier, rfl⟩, middleOther, frameOther, onTierOther, rfl⟩
    obtain ⟨held, claimed⟩ := exists_claim onTier.choose_spec.1
    obtain ⟨heldOther, claimedOther⟩ := exists_claim onTierOther.choose_spec.1
    refine follows_followedBy ?_
    refine step inner ?_ distinct distinctOther ?_
    · exact fun inside insideOther leased leasedOther =>
        run inside insideOther (leased.cons frame onTier claimed)
          (leasedOther.cons frameOther onTierOther claimedOther)
    · refine List.forall₂_iff_get.2 ⟨rest.length_eq, fun index inside insideOther => ?_⟩
      refine (rest.get inside insideOther).of_pin frame frameOther ?_ ?_
      · rintro rfl
        exact isNew (List.get_mem _ _)
      · rintro rfl
        exact isNewOther (List.get_mem _ _)

end

/-- An action under a lease follows another one under a lease of a corresponding buffer. -/
theorem follows_withLease
    {first : Action α β}
    {second : Action α γ}
    (result : β → γ → Prop)
    (same : Corresponds left right buffer other)
    (run : ∀ inside insideOther, Leased [buffer] left inside → Leased [other] right insideOther →
      Level make inside insideOther →
      Follows first second inside insideOther fun answer other _ _ => result answer other) :
    Follows (withLease buffer .accelerator first) (withLease other .accelerator second) left right
      fun answer other _ _ => result answer other :=
  follows_withLeasesInOrder steady level result run (List.nodup_singleton _)
    (List.nodup_singleton _)
    (.cons same .nil)

/-- Leases of the same buffers in both stores. -/
theorem follows_withLeases
    {buffers : List BufferId}
    {first : Action α β}
    {second : Action α γ}
    (result : β → γ → Prop)
    (distinct : buffers.Nodup)
    (same : ∀ buffer ∈ buffers, Corresponds left right buffer buffer)
    (run : ∀ inside insideOther, Leased buffers left inside → Leased buffers right insideOther →
      Level make inside insideOther →
      Follows first second inside insideOther fun answer other _ _ => result answer other) :
    Follows (withLeases buffers first) (withLeases buffers second) left right
      fun answer other _ _ => result answer other := by
  have perm := List.mergeSort_perm buffers fun left right => left.index ≤ right.index
  have sorted := perm.nodup_iff.2 distinct
  refine follows_withLeasesInOrder steady level result (fun inside insideOther leased leasedOther =>
    run inside insideOther (leased.perm perm) (leasedOther.perm perm)) sorted sorted ?_
  exact List.forall₂_same.2 fun buffer member => same buffer (perm.mem_iff.1 member)

end

/-! ## Reads and writes -/

omit [Arithmetic α] in
/-- A leased buffer is not written. -/
theorem ends_claim_of_leased
    {next : Unit → Action α β}
    (live : ∃ claim, before.claim? buffer = some claim)
    (leased : 0 < before.leasesOf buffer) :
    Ends (claim buffer >>= next) before (fun _ _ => False)
      fun reason _ => reason = .bufferBusy buffer := by
  obtain ⟨held, claimed⟩ := live
  unfold claim
  rw [ends_bind_iff, ends_bind_iff]
  refine ends_find ?_ fun absent => ?_
  · intro found again _
    rw [leasesOf_of_claim again] at leased
    have positive : 0 < found.leases := leased
    rw [if_pos positive]
    rfl
  · rw [absent] at claimed
    cases claimed

section

variable
    (steady : make.Steady)
    (accounted : before.Accounted make ∅)
    (live : ∃ claim, before.claim? buffer = some claim)

include steady accounted live

/-- A buffer can be read unless it is leased on the accelerator. -/
theorem ends_read_of_admits
    {failed : Error → Store α → Prop}
    (admits : before.Admits buffer .host) :
    Ends (read buffer) before (fun _ _ => True) failed := by
  by_cases idle : before.leasesOf buffer = 0
  · obtain ⟨claim, claimed⟩ := live
    exact ends_read_of_free steady accounted.within
      ⟨claim, claimed, leasesOf_of_claim claimed ▸ idle⟩
  · refine ends_read_of_leased accounted.valid ?_
    refine (ends_lease_admits (by decide) live).mono (fun _ _ _ => trivial) ?_
    exact fun _ _ refused => refused.elim idle fun both => both.1 (admits.resolve_left idle)

omit steady accounted in
theorem ends_read_of_not_admits
    (elsewhere : ¬ before.Admits buffer .host) :
    Ends (read buffer) before (fun _ _ => False) fun reason _ => reason = .bufferBusy buffer := by
  unfold read withLease
  rw [ends_bind_iff]
  exact (ends_lease_admits (by decide) live).mono (fun _ _ admits => absurd admits elsewhere)
    fun _ _ refused => (refused.resolve_left fun idle => elsewhere (.inl idle)).2

end

section

variable
    (steady : make.Steady)
    (level : Level make left right)
    (same : Corresponds left right buffer other)

include steady level same

/-- A buffer can be read just where a corresponding one can. -/
theorem follows_read :
    Follows (read buffer) (read other) left right fun _ _ _ _ => True := by
  have live := same
  obtain ⟨claim, claimed, claimedOther, -⟩ := live
  by_cases admits : left.Admits buffer .host
  · exact follows_of_answers (ends_read_of_admits steady level.accounted ⟨claim, claimed⟩ admits)
      (ends_read_of_admits steady level.accountedOther ⟨claim, claimedOther⟩ (same.admits admits))
      fun _ _ _ _ _ _ => trivial
  · have leased := Nat.pos_of_ne_zero fun idle => admits (.inl idle)
    refine follows_of_refusals (ends_read_of_not_admits ⟨claim, claimed⟩ admits) ?_
    rw [← (same.of_positive leased).1]
    exact ends_read_of_not_admits ⟨claim, claimedOther⟩ fun admitsOther =>
      admits (same.symm.admits admitsOther)

/-- A buffer can be filled just where a corresponding one can. -/
theorem follows_fill (value : α) :
    Follows (fill buffer value) (fill other value) left right fun _ _ _ _ => True := by
  have live := same
  obtain ⟨claim, claimed, claimedOther, -⟩ := live
  by_cases idle : left.leasesOf buffer = 0
  · have free : left.Free buffer := ⟨claim, claimed, leasesOf_of_claim claimed ▸ idle⟩
    exact follows_of_answers (ends_fill_of_free steady level.accounted.within free value)
      (ends_fill_of_free steady level.accountedOther.within (same.free free) value)
      fun _ _ _ _ _ _ => trivial
  · have leased := Nat.pos_of_ne_zero idle
    refine follows_of_refusals (ends_claim_of_leased ⟨claim, claimed⟩ leased) ?_
    rw [← (same.of_positive leased).1]
    exact ends_claim_of_leased ⟨claim, claimedOther⟩ (same.leasesOf ▸ leased)

end

omit [Arithmetic α] in
/-- Buffers that are as long are found with the same length. -/
theorem follows_find
    (length : right.lengthOf other = left.lengthOf buffer)
    (live : ∃ claim, left.claim? buffer = some claim)
    (liveOther : ∃ claim, right.claim? other = some claim) :
    Follows (find buffer) (find other) left right
      fun found foundOther after afterwards => after = left ∧ afterwards = right ∧
        found.length = left.lengthOf buffer ∧ foundOther.length = found.length := by
  have ends : ∀ {store : Store α} {buffer : BufferId}, (∃ claim, store.claim? buffer = some claim) →
      Ends (find buffer) store
        (fun found after => after = store ∧ found.length = store.lengthOf buffer)
        fun _ _ => False := by
    rintro store buffer ⟨claim, claimed⟩
    refine ends_find ?_ fun absent => ?_
    · intro found again _
      refine ⟨rfl, ?_⟩
      rw [lengthOf, again]
      rfl
    · rw [absent] at claimed
      cases claimed
  refine follows_of_answers (ends live) (ends liveOther) ?_
  rintro found foundOther _ _ ⟨rfl, foundLength⟩ ⟨rfl, foundOtherLength⟩
  exact ⟨rfl, rfl, foundLength, by rw [foundOtherLength, foundLength, length]⟩

/-- A buffer can be written just where a corresponding one can. -/
theorem follows_write
    (same : Corresponds left right buffer other)
    (values : Array α) :
    Follows (write buffer values) (write other values) left right fun _ _ _ _ => True := by
  have live := same
  obtain ⟨claim, claimed, claimedOther, -⟩ := live
  unfold write
  refine follows_bind ((follows_find same.lengthOf ⟨claim, claimed⟩ ⟨claim, claimedOther⟩).mono ?_)
  rintro found foundOther left right ⟨rfl, rfl, -, length⟩
  rw [length]
  dsimp only
  split
  · exact follows_throw_bind
  · by_cases idle : left.leasesOf buffer = 0
    · have free : left.Free buffer := ⟨claim, claimed, leasesOf_of_claim claimed ▸ idle⟩
      refine follows_bind (follows_of_answers (ends_claim_of_free free)
        (ends_claim_of_free (same.free free)) fun _ _ _ _ _ _ => follows_modify trivial)
    · have leased := Nat.pos_of_ne_zero idle
      refine follows_of_refusals (ends_claim_of_leased ⟨claim, claimed⟩ leased) ?_
      rw [← (same.of_positive leased).1]
      exact ends_claim_of_leased ⟨claim, claimedOther⟩ (same.leasesOf ▸ leased)

/-! ## Launches -/

omit [Arithmetic α] in
theorem follows_blockOf
    (there : left.OnAccelerator buffer)
    (thereOther : right.OnAccelerator other) :
    Follows (blockOf buffer) (blockOf other) left right
      fun block blockOther after afterwards => after = left ∧ afterwards = right ∧
        left.contents? buffer = some (.device block) ∧
        right.contents? other = some (.device blockOther) :=
  follows_of_answers (ends_blockOf there) (ends_blockOf thereOther)
    fun _ _ _ _ here hereOther => ⟨here.1, hereOther.1, here.2, hereOther.2⟩

/-- The blocks of leased buffers. -/
theorem follows_mapM_blockOf
    {inside insideOther : Store α}
    {buffers : List BufferId}
    (leased : Leased buffers left inside)
    (leasedOther : Leased buffers right insideOther) :
    Follows (buffers.mapM blockOf) (buffers.mapM blockOf) inside insideOther
      fun blocks blocksOther after afterwards => after = inside ∧ afterwards = insideOther ∧
        List.Forall₂ inside.Pins buffers blocks ∧
        List.Forall₂ insideOther.Pins buffers blocksOther :=
  follows_of_answers (ends_mapM_blockOf leased fun _ member => member)
    (ends_mapM_blockOf leasedOther fun _ member => member)
    fun _ _ _ _ here hereOther => ⟨here.1, hereOther.1, here.2, hereOther.2⟩

/-- Values that are the same give the same rows, so a launch is refused for neither or both. -/
theorem follows_launch
    {ω : Type}
    {length : Nat}
    {sources sourcesOther : List BufferId}
    {inputs inputsOther : List Block}
    {block blockOther : Block}
    {kernel : Kernel α ω}
    (steady : make.Steady)
    (level : Level make left right)
    (read : List.Forall₂ (fun source block => left.contents? source = some (.device block))
      sources inputs)
    (written : left.contents? buffer = some (.device block))
    (readOther : List.Forall₂
      (fun source block => right.contents? source = some (.device block)) sourcesOther inputsOther)
    (writtenOther : right.contents? other = some (.device blockOther))
    (long : length ≤ left.lengthOf buffer)
    (longOther : length ≤ right.lengthOf other)
    (same : List.Forall₂ (fun source sourceOther =>
      right.reading? sourceOther = left.reading? source) sources sourcesOther) :
    Follows (perform (Accelerator.launch length inputs [block] kernel))
      (perform (Accelerator.launch length inputsOther [blockOther] kernel)) left right
      fun _ _ _ _ => True := by
  obtain ⟨views, viewed⟩ := exists_readings level.accounted.valid read
  have viewedOther : List.Forall₂ (fun source values => right.reading? source = some values)
      sourcesOther views := by
    clear readOther read
    induction same generalizing views with
    | nil =>
      cases viewed
      exact .nil
    | cons first _ step =>
      cases viewed with
      | cons reads viewed => exact .cons (first.trans reads) (step _ viewed)
  have longTarget : ∀ target ∈ [buffer], length ≤ left.lengthOf target :=
    List.forall_mem_singleton.2 long
  have longTargetOther : ∀ target ∈ [other], length ≤ right.lengthOf target :=
    List.forall_mem_singleton.2 longOther
  have endsOther : Ends (perform (Accelerator.launch length inputsOther [blockOther] kernel)) right
      _ _ :=
    ends_launch_rows steady level.accountedOther readOther (.cons writtenOther .nil) longTargetOther
      viewedOther
  refine follows_of_ends
    (ends_launch_rows steady level.accounted read (.cons written .nil) longTarget viewed) ?_ ?_
  · rintro _ _ ⟨rows, ran⟩
    refine endsOther.mono (fun _ _ _ => trivial) ?_
    rintro _ _ ⟨reason, failed, -⟩
    cases ran.symm.trans failed
  · rintro _ _ ⟨reason, failed, rfl⟩
    refine endsOther.mono ?_ ?_
    · rintro _ _ ⟨rows, ran⟩
      cases ran.symm.trans failed
    · rintro _ _ ⟨again, failedOther, rfl⟩
      cases failed.symm.trans failedOther
      rfl

end Elementwise.Store
