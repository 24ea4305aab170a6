import Elementwise.Proofs.Buffer.Following

/-!
# Buffers that fit together

Buffers fit if all of them can be leased on the accelerator at once.  That is decided
by the lengths of what is leased and of what is to be leased, wherever all other
buffers are: an action under leases that answered has shown that its buffers fit,
even if the accelerator may fail; and on an accelerator that never fails, buffers that
fit are leased.

Buffers that fit go on to fit as leases end.
-/

namespace Elementwise.Store

variable
    {α β : Type}
    [Arithmetic α]
    {make : Make}
    {before middle after left right : Store α}
    {buffer : BufferId}
    {buffers others rest : List BufferId}

/-- All buffers can be leased on the accelerator at once. -/
structure Fits (make : Make) (store : Store α) (buffers : List BufferId) : Prop where
  admits : ∀ buffer ∈ buffers, store.Admits buffer .accelerator
  room : store.pinnedExtent + (buffers.map store.need).sum ≤ make.capacity

namespace Fits

omit [Arithmetic α] in
theorem perm
    (fits : before.Fits make buffers)
    (perm : buffers.Perm others) :
    before.Fits make others where
  admits buffer member := fits.admits buffer (perm.mem_iff.2 member)
  room := (perm.map before.need).sum_eq ▸ fits.room

omit [Arithmetic α] in
/-- Buffers fit where buffers that they correspond to do. -/
theorem of_corresponds
    (fits : right.Fits make others)
    (level : Level make left right)
    (same : List.Forall₂ (Corresponds left right) buffers others) :
    left.Fits make buffers where
  admits buffer member := by
    obtain ⟨other, among, corresponds⟩ := exists_of_forall₂ same buffer member
    exact corresponds.symm.admits (fits.admits other among)
  room := by
    have needs : buffers.map left.need = others.map right.need := by
      clear fits
      induction same with
      | nil => rfl
      | cons first _ step => rw [List.map_cons, List.map_cons, first.need, step]
    rw [needs, ← level.extent]
    exact fits.room

end Fits

omit [Arithmetic α] in
/-- What is leased fits. -/
theorem fits_nil (accounted : before.Accounted make ∅) : before.Fits make [] where
  admits _ absent := absurd absent List.not_mem_nil
  room := accounted.within.pinnedExtent_le_capacity

/-! ## Leases of buffers that fit -/

section

variable
    (frame : Frame ∅ ∅ before middle)
    {other : BufferId}
    (different : other ≠ buffer)

include frame different

/-- A lease changes nothing for other buffers. -/
theorem need_pin : (middle.pin buffer).need other = before.need other := by
  have claims : (middle.pin buffer).claim? other = before.claim? other := by
    rw [claim?_pin, if_neg (Ne.symm different), frame.claims other (Set.notMem_empty _)]
  rw [need, need, leasesOf, lengthOf, claims, leasesOf, lengthOf]

theorem admits_pin
    {tier : Tier} :
    (middle.pin buffer).Admits other tier ↔ before.Admits other tier := by
  have claims : (middle.pin buffer).claim? other = before.claim? other := by
    rw [claim?_pin, if_neg (Ne.symm different), frame.claims other (Set.notMem_empty _)]
  rw [Admits, Admits, leasesOf, leasesOf, claims, OnTier, OnTier, contents?_pin]
  refine or_congr_right' fun leased => ?_
  obtain ⟨claim, claimed, positive⟩ := exists_claim_of_leased (Nat.pos_of_ne_zero leased)
  rw [frame.pinned other claim (Set.notMem_empty _) claimed positive]

end

section

variable
    {body : Action α β}
    (accounted : before.Accounted make ∅)
    (distinct : (buffers ++ rest).Nodup)
    (live : ∀ buffer ∈ buffers, ∃ claim, before.claim? buffer = some claim)

include accounted distinct live

/-- Buffers that were leased together fit. -/
theorem ends_withLeasesInOrder_fits
    (run : ∀ inside, Leased buffers before inside → inside.Accounted make ∅ →
      Ends body inside (fun _ _ => inside.Fits make rest) fun _ _ => True) :
    Ends (withLeasesInOrder buffers body) before
      (fun _ _ => before.Fits make (buffers ++ rest)) fun _ _ => True := by
  induction buffers generalizing before with
  | nil => exact run before (.refl accounted.valid) accounted
  | cons buffer buffers step =>
    obtain ⟨isNew, distinct⟩ := List.nodup_cons.1 distinct
    have different : ∀ other ∈ buffers ++ rest, other ≠ buffer :=
      fun other member same => isNew (same ▸ member)
    rw [withLeasesInOrder, withLease, ends_bind_iff]
    refine (ends_lease_extent accounted (live buffer List.mem_cons_self)).mono ?_
      fun _ _ _ => trivial
    rintro _ _ ⟨admits, books, extent, middle, frame, onTier, rfl⟩
    obtain ⟨held, claimed⟩ := exists_claim onTier.choose_spec.1
    rw [ends_followedBy_iff]
    refine (step books distinct (fun other member => ?_) fun inside leased =>
      run inside (leased.cons frame onTier claimed)).mono ?_ fun _ _ _ => trivial
    · obtain ⟨claim, claimed⟩ := live other (List.mem_cons_of_mem _ member)
      refine ⟨claim, ?_⟩
      rw [claim?_pin, if_neg (Ne.symm (different other (List.mem_append_left _ member))),
        frame.claims other (Set.notMem_empty _), claimed]
    · rintro _ _ fits
      refine ⟨?_, ?_⟩
      · rintro other (_ | ⟨_, member⟩)
        · exact admits
        · exact (admits_pin frame (different other member)).1 (fits.admits other member)
      · have room := fits.room
        have needs : (buffers ++ rest).map (middle.pin buffer).need =
            (buffers ++ rest).map before.need :=
          List.map_congr_left fun other member => need_pin frame (different other member)
        rw [extent, needs] at room
        rw [List.cons_append, List.map_cons, List.sum_cons]
        omega

/-- Buffers that fit are leased together on an accelerator that never fails. -/
theorem ends_withLeasesInOrder_of_fits
    (steady : make.Steady)
    (fits : before.Fits make (buffers ++ rest))
    (run : ∀ inside, Leased buffers before inside → inside.Accounted make ∅ →
      inside.Fits make rest → Ends body inside (fun _ _ => True) fun _ _ => False) :
    Ends (withLeasesInOrder buffers body) before (fun _ _ => True) fun _ _ => False := by
  induction buffers generalizing before with
  | nil => exact run before (.refl accounted.valid) accounted fits
  | cons buffer buffers step =>
    obtain ⟨isNew, distinct⟩ := List.nodup_cons.1 distinct
    have different : ∀ other ∈ buffers ++ rest, other ≠ buffer :=
      fun other member same => isNew (same ▸ member)
    have room := fits.room
    rw [List.cons_append, List.map_cons, List.sum_cons] at room
    rw [withLeasesInOrder, withLease, ends_bind_iff]
    refine (ends_lease_needs steady accounted (live buffer List.mem_cons_self)).mono ?_ ?_
    · rintro _ _ ⟨-, books, extent, middle, frame, onTier, rfl⟩
      obtain ⟨held, claimed⟩ := exists_claim onTier.choose_spec.1
      rw [ends_followedBy_iff]
      refine step books distinct (fun other member => ?_) ⟨fun other member => ?_, ?_⟩
        fun inside leased => run inside (leased.cons frame onTier claimed)
      · obtain ⟨claim, claimed⟩ := live other (List.mem_cons_of_mem _ member)
        refine ⟨claim, ?_⟩
        rw [claim?_pin, if_neg (Ne.symm (different other (List.mem_append_left _ member))),
          frame.claims other (Set.notMem_empty _), claimed]
      · exact (admits_pin frame (different other member)).2
          (fits.admits other (List.mem_cons_of_mem _ member))
      · have needs : (buffers ++ rest).map (middle.pin buffer).need =
            (buffers ++ rest).map before.need :=
          List.map_congr_left fun other member => need_pin frame (different other member)
        rw [extent, needs]
        omega
    · intro _ _ refused
      have exceeds := (refused.exhausted (fits.admits buffer List.mem_cons_self)).exceeds
      omega

end

/-! ## Leases that end -/

omit [Arithmetic α] in
/-- What is leased and what is to be leased make up a set of buffers. -/
theorem pinnedExtent_add_needs
    (accounted : before.Accounted make ∅)
    (distinct : buffers.Nodup)
    (admits : ∀ buffer ∈ buffers, before.Admits buffer .accelerator) :
    before.pinnedExtent + (buffers.map before.need).sum =
      ∑ buffer ∈ {buffer ∈ before.resident | 0 < before.leasesOf buffer} ∪ buffers.toFinset,
        before.lengthOf buffer := by
  rw [← Finset.union_sdiff_self_eq_union, Finset.sum_union Finset.disjoint_sdiff, pinnedExtent,
    ← List.sum_toFinset before.need distinct]
  congr 1
  show ∑ buffer ∈ buffers.toFinset,
    (if before.leasesOf buffer = 0 then before.lengthOf buffer else 0) = _
  rw [← Finset.sum_filter]
  refine Finset.sum_congr ?_ fun _ _ => rfl
  ext buffer
  rw [Finset.mem_filter, Finset.mem_sdiff, List.mem_toFinset, Finset.mem_filter]
  refine and_congr_right fun member => ?_
  constructor
  · exact fun idle both => Nat.ne_of_gt both.2 idle
  · intro unpinned
    by_contra leased
    -- a leased buffer that is admitted is on the accelerator
    have there := onAccelerator_of_onTier ((admits buffer member).resolve_left leased)
    exact unpinned ⟨accounted.mem_resident_iff_onAccelerator.2 there, Nat.pos_of_ne_zero leased⟩

omit [Arithmetic α] in
/-- Buffers go on to fit as leases end. -/
theorem Fits.ease
    {makeAfter : Make}
    (fits : before.Fits make buffers)
    (accounted : before.Accounted make ∅)
    (accountedAfter : after.Accounted makeAfter ∅)
    (capacity : makeAfter.capacity = make.capacity)
    (distinct : buffers.Nodup)
    (fewer : ∀ buffer, after.leasesOf buffer ≤ before.leasesOf buffer)
    (stays : ∀ buffer, 0 < after.leasesOf buffer →
      after.contents? buffer = before.contents? buffer)
    (lengths : ∀ buffer, buffer ∈ buffers ∨ 0 < after.leasesOf buffer →
      after.lengthOf buffer = before.lengthOf buffer) :
    after.Fits makeAfter buffers := by
  have admits : ∀ buffer ∈ buffers, after.Admits buffer .accelerator := by
    intro buffer member
    by_cases idle : after.leasesOf buffer = 0
    · exact .inl idle
    · have leased := Nat.pos_of_ne_zero idle
      have leasedBefore := Nat.ne_of_gt (Nat.lt_of_lt_of_le leased (fewer buffer))
      obtain ⟨contents, held, onTier⟩ := (fits.admits buffer member).resolve_left leasedBefore
      exact .inr ⟨contents, (stays buffer leased).trans held, onTier⟩
  refine ⟨admits, ?_⟩
  have room := fits.room
  rw [pinnedExtent_add_needs accounted distinct fits.admits] at room
  rw [pinnedExtent_add_needs accountedAfter distinct admits, capacity]
  refine Nat.le_trans ?_ room
  calc ∑ buffer ∈ {buffer ∈ after.resident | 0 < after.leasesOf buffer} ∪ buffers.toFinset,
        after.lengthOf buffer
      = ∑ buffer ∈ {buffer ∈ after.resident | 0 < after.leasesOf buffer} ∪ buffers.toFinset,
          before.lengthOf buffer := by
        refine Finset.sum_congr rfl fun buffer member => lengths buffer ?_
        rw [Finset.mem_union, List.mem_toFinset, Finset.mem_filter] at member
        exact member.symm.imp_right And.right
    _ ≤ ∑ buffer ∈ {buffer ∈ before.resident | 0 < before.leasesOf buffer} ∪ buffers.toFinset,
          before.lengthOf buffer := by
        refine Finset.sum_le_sum_of_subset (Finset.union_subset_union_left fun buffer member => ?_)
        obtain ⟨there, leased⟩ := Finset.mem_filter.1 member
        obtain ⟨block, held⟩ := accountedAfter.mem_resident_iff_onAccelerator.1 there
        refine Finset.mem_filter.2 ⟨accounted.mem_resident_iff_onAccelerator.2 ⟨block, ?_⟩,
          Nat.lt_of_lt_of_le leased (fewer buffer)⟩
        rw [← stays buffer leased, held]

/-- Buffers fit wherever all buffers have been moved. -/
theorem Fits.still
    {makeAfter : Make}
    {written : Set BufferId}
    (fits : before.Fits make buffers)
    (accounted : before.Accounted make ∅)
    (accountedAfter : after.Accounted makeAfter ∅)
    (capacity : makeAfter.capacity = make.capacity)
    (distinct : buffers.Nodup)
    (frame : Frame ∅ written before after) :
    after.Fits makeAfter buffers := by
  have leases : ∀ buffer, after.leasesOf buffer = before.leasesOf buffer :=
    fun _ => leasesOf_frame frame (Set.notMem_empty _)
  refine fits.ease accounted accountedAfter capacity distinct
    (fun buffer => Nat.le_of_eq (leases _))
    (fun buffer leased => ?_) fun _ _ => lengthOf_frame frame (Set.notMem_empty _)
  rw [leases] at leased
  obtain ⟨claim, claimed, positive⟩ := exists_claim_of_leased leased
  exact frame.pinned buffer claim (Set.notMem_empty _) claimed positive

/-- Buffers that are still there fit after a claim was taken back. -/
theorem Fits.reclaim
    {change : Buffer α → Buffer α}
    {revise : Claim → Claim}
    (revises : Revises change revise)
    (fewer : ∀ claim, (revise claim).leases ≤ claim.leases)
    (fits : before.Fits make buffers)
    (accounted : before.Accounted make ∅)
    (accountedAfter : ((before.revised buffer change).reclaim buffer).Accounted make ∅)
    (distinct : buffers.Nodup)
    (live : ∀ other ∈ buffers, ∃ claim,
      ((before.revised buffer change).reclaim buffer).claim? other = some claim) :
    ((before.revised buffer change).reclaim buffer).Fits make buffers := by
  refine fits.ease accounted accountedAfter rfl distinct (leasesOf_reclaim_le revises fewer buffer)
    (fun other leased => ?_) fun other known => ?_
  · obtain ⟨claim, claimed, -⟩ := exists_claim_of_leased leased
    exact contents?_reclaim_of_live revises claimed
  · have there : ∃ claim,
        ((before.revised buffer change).reclaim buffer).claim? other = some claim :=
      known.elim (live other) fun leased =>
        have ⟨claim, claimed, _⟩ := exists_claim_of_leased leased
        ⟨claim, claimed⟩
    obtain ⟨claim, claimed⟩ := there
    obtain ⟨old, present, rfl⟩ := exists_claim_of_reclaim revises claimed
    rw [lengthOf, claimed, lengthOf, present, Option.elim_some, Option.elim_some]
    split
    · exact revises.length old
    · rfl

end Elementwise.Store
