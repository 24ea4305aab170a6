import Mathlib
import Elementwise.Proofs.Buffer.Balance
import Elementwise.Proofs.Buffer.Launch
import Elementwise.Proofs.Buffer.Quota

/-!
# When the accelerator is full

On an accelerator that never fails and serves nobody else, moving a buffer
there fails only if the buffers that are leased leave too little room: all
others can be moved off.  So an action fails only if the elements that it needs
at once, together with those of the buffers leased before, exceed the
capacity.

The leases are listed with the lengths of their buffers, and the load of such a
list is what they take up together.
-/

namespace Elementwise

/-! ## Calls that succeed -/

namespace Pool

variable
    {α : Type}
    {pool : Pool α}
    {block : Block}
    {values : Array α}

theorem download_isOk
    (live : pool.blocks.get? block.handle = some values) :
    ∃ after, pool.download block values.size = .ok (values, after) := by
  simp only [download, contents, live, checkLength, bind, Except.bind, if_true]
  exact ⟨_, rfl⟩

theorem upload_isOk
    {current : Array α}
    (live : pool.blocks.get? block.handle = some current)
    (size : current.size = values.size) :
    ∃ after, pool.upload block values = .ok after := by
  simp only [upload, contents, live, checkLength, size, bind, Except.bind, if_true]
  exact ⟨_, rfl⟩

theorem fill_isOk
    (live : pool.blocks.get? block.handle = some values)
    (value : α) :
    ∃ after, pool.fill block value = .ok after := by
  simp only [fill, contents, live, bind, Except.bind]
  exact ⟨_, rfl⟩

end Pool

namespace Make

/-- The accelerator never fails on its own account. -/
def Steady (make : Make) : Prop :=
  ∀ method index, make.faults method index = none

end Make

/-- A number of elements does not fit on an accelerator of a given capacity. -/
structure Full (capacity load : Nat) (reason : Error) : Prop where
  exhausted : ∃ requested freed, reason = .resourceExhausted requested freed
  exceeds : capacity < load

theorem Full.mono
    {capacity load more : Nat}
    {reason : Error}
    (full : Full capacity load reason)
    (fewer : load ≤ more) :
    Full capacity more reason :=
  ⟨full.exhausted, Nat.lt_of_lt_of_le full.exceeds fewer⟩

/-- A number of elements does not fit, and this comes to light as a block is asked for. -/
structure Exhausted (capacity load length : Nat) (reason : Error) : Prop where
  requested : ∃ freed, reason = .resourceExhausted length freed
  exceeds : capacity < load

theorem Exhausted.full
    {capacity load length : Nat}
    {reason : Error}
    (exhausted : Exhausted capacity load length reason) :
    Full capacity load reason :=
  ⟨⟨length, exhausted.requested⟩, exhausted.exceeds⟩

namespace Store

variable
    {α β : Type}
    [Arithmetic α]
    {make : Make}
    {store before after : Store α}
    {buffer : BufferId}
    {quota : Quota}

/-! ## Leases with the lengths of their buffers -/

/-- Every buffer is leased at most as often as it is listed with its length. -/
def quotaOf (held : List (BufferId × Nat)) : Quota :=
  fun buffer length => held.count (buffer, length)

/-- The elements of all buffers that are listed. -/
def loadOf (held : List (BufferId × Nat)) : Nat :=
  (held.map Prod.snd).sum

omit [Arithmetic α] in
theorem more_quotaOf
    (held : List (BufferId × Nat))
    (buffer : BufferId)
    (length : Nat) :
    (quotaOf held).more buffer length = quotaOf ((buffer, length) :: held) := by
  funext other size
  simp only [Quota.more, quotaOf, List.count_cons, beq_iff_eq, Prod.mk.injEq]

/-- Different buffers that are listed take up at most the load of the list. -/
theorem sum_le_loadOf
    {held : List (BufferId × Nat)}
    {buffers : Finset BufferId}
    {length : BufferId → Nat}
    (listed : ∀ buffer ∈ buffers, (buffer, length buffer) ∈ held) :
    ∑ buffer ∈ buffers, length buffer ≤ loadOf held := by
  induction held generalizing buffers with
  | nil =>
    have none : buffers = ∅ :=
      Finset.eq_empty_of_forall_notMem fun buffer member => List.not_mem_nil (listed buffer member)
    rw [none, Finset.sum_empty]
    exact Nat.zero_le _
  | cons entry held step =>
    obtain ⟨first, size⟩ := entry
    have rest : ∀ buffer ∈ buffers.erase first, (buffer, length buffer) ∈ held := by
      intro buffer member
      obtain ⟨different, member⟩ := Finset.mem_erase.1 member
      refine (List.mem_cons.1 (listed buffer member)).resolve_left fun same => ?_
      exact different (Prod.mk.inj same).1
    have total : loadOf ((first, size) :: held) = size + loadOf held := List.sum_cons
    rw [total]
    by_cases among : first ∈ buffers
    · rcases List.mem_cons.1 (listed first among) with same | again
      · rw [← Finset.add_sum_erase _ _ among, (Prod.mk.inj same).2]
        exact Nat.add_le_add_left (step rest) _
      · have all : ∀ buffer ∈ buffers, (buffer, length buffer) ∈ held := by
          intro buffer member
          by_cases same : buffer = first
          · rw [same]
            exact again
          · exact rest buffer (Finset.mem_erase.2 ⟨same, member⟩)
        exact Nat.le_trans (step all) (Nat.le_add_left ..)
    · rw [Finset.erase_eq_of_notMem among] at rest
      exact Nat.le_trans (step rest) (Nat.le_add_left ..)

/-! ## What is in use -/

/-- The length of a live buffer. -/
def lengthOf (store : Store α) (buffer : BufferId) : Nat :=
  (store.claim? buffer).elim 0 (·.length)

/-- The elements of some buffers together. -/
def extent (store : Store α) (buffers : List BufferId) : Nat :=
  (buffers.map store.lengthOf).sum

/-- A buffer reads as values of its length. -/
theorem size_of_reading
    (valid : store.Valid)
    {values : Array α}
    (reads : store.reading? buffer = some values) :
    values.size = store.lengthOf buffer := by
  cases claimed : store.claim? buffer with
  | none =>
    rw [reading?_eq, claimed] at reads
    cases reads
  | some claim =>
    obtain ⟨found, again, size⟩ := exists_reading valid claimed
    rw [reads] at again
    cases again
    rw [lengthOf, claimed]
    exact size

/-- A live buffer that nobody leases. -/
def Free (store : Store α) (buffer : BufferId) : Prop :=
  ∃ claim, store.claim? buffer = some claim ∧ claim.leases = 0

omit [Arithmetic α] in
theorem Accounted.mem_resident_iff_onAccelerator
    {others : Others α}
    (accounted : store.Accounted make others) :
    buffer ∈ store.resident ↔ store.OnAccelerator buffer := by
  constructor
  · intro member
    obtain ⟨-, block, -, -, held, -⟩ := accounted.exists_block member
    exact ⟨block, held⟩
  · rintro ⟨block, held⟩
    obtain ⟨found, present, -⟩ := Option.map_eq_some_iff.1 held
    have located := accounted.located buffer _ held
    rw [location?, present] at located
    exact mem_resident_iff.2 ⟨found, present, Option.some.inj located⟩

omit [Arithmetic α] in
/-- What buffers take up on the accelerator are the lengths of those that are there. -/
theorem Accounted.usage_eq_resident
    {others : Others α}
    (accounted : store.Accounted make others) :
    store.usage .accelerator = ∑ buffer ∈ store.resident, store.lengthOf buffer := by
  rw [accounted.usage_eq, resident, Finset.sum_filter]
  refine Finset.sum_congr rfl fun buffer member => ?_
  obtain ⟨found, present⟩ := Table.mem_keys_iff.1 member
  simp only [takes, location?, lengthOf, claim?, present, Option.elim_some, Option.map_some,
    Option.some.injEq]
  rfl

omit [Arithmetic α] in
/-- What is in use are the buffers on the accelerator. -/
theorem Within.used_eq (within : store.Within make quota) :
    store.accelerator.pool.used = ∑ buffer ∈ store.resident, store.lengthOf buffer := by
  have nobody : ∀ handle, handle ∈ (∅ : Finset Nat) ↔
      ∃ values, (handle, some values) ∈ (∅ : Others α) := by
    simp
  rw [within.accounted.used_eq nobody, Finset.sum_empty, Nat.add_zero,
    within.accounted.usage_eq_resident]

omit [Arithmetic α] in
theorem Within.used_le_capacity (within : store.Within make quota) :
    store.accelerator.pool.used ≤ make.capacity := by
  rw [← within.accounted.made]
  exact within.accounted.counted.fits

omit [Arithmetic α] in
/-- Different buffers that are on the accelerator at once fit there. -/
theorem Within.extent_le_capacity
    (within : store.Within make quota)
    {buffers : List BufferId}
    (distinct : buffers.Nodup)
    (there : ∀ buffer ∈ buffers, store.OnAccelerator buffer) :
    store.extent buffers ≤ make.capacity := by
  rw [extent, ← List.sum_toFinset _ distinct]
  refine Nat.le_trans ?_ within.used_le_capacity
  rw [within.used_eq]
  refine Finset.sum_le_sum_of_subset fun buffer member => ?_
  exact within.accounted.mem_resident_iff_onAccelerator.2
    (there buffer (List.mem_toFinset.1 member))

/-! ## Leased buffers on the accelerator -/

/-- How often a live buffer is leased. -/
def leasesOf (store : Store α) (buffer : BufferId) : Nat :=
  (store.claim? buffer).elim 0 (·.leases)

/-- The elements of the buffers on the accelerator that are leased. -/
def pinnedExtent (store : Store α) : Nat :=
  ∑ buffer ∈ store.resident with 0 < store.leasesOf buffer, store.lengthOf buffer

theorem leasesOf_frame
    {made written : Set BufferId}
    (frame : Frame made written before after)
    (old : buffer ∉ made) :
    after.leasesOf buffer = before.leasesOf buffer := by
  rw [leasesOf, frame.claims buffer old, leasesOf]

theorem lengthOf_frame
    {made written : Set BufferId}
    (frame : Frame made written before after)
    (old : buffer ∉ made) :
    after.lengthOf buffer = before.lengthOf buffer := by
  rw [lengthOf, frame.claims buffer old, lengthOf]

omit [Arithmetic α] in
theorem exists_claim_of_leased (leased : 0 < store.leasesOf buffer) :
    ∃ claim, store.claim? buffer = some claim ∧ 0 < claim.leases := by
  unfold leasesOf at leased
  cases claimed : store.claim? buffer with
  | none =>
    rw [claimed] at leased
    exact absurd leased (Nat.lt_irrefl 0)
  | some claim =>
    rw [claimed] at leased
    exact ⟨claim, rfl, leased⟩

omit [Arithmetic α] in
/-- What counts are the buffers that are leased, where they are, and how long they are. -/
theorem pinnedExtent_congr
    {makeAfter : Make}
    {others othersAfter : Others α}
    (accounted : before.Accounted make others)
    (accountedAfter : after.Accounted makeAfter othersAfter)
    (leases : ∀ buffer, after.leasesOf buffer = before.leasesOf buffer)
    (stays : ∀ buffer, 0 < before.leasesOf buffer →
      (after.OnAccelerator buffer ↔ before.OnAccelerator buffer) ∧
        after.lengthOf buffer = before.lengthOf buffer) :
    after.pinnedExtent = before.pinnedExtent := by
  refine Finset.sum_congr ?_ fun buffer member => ?_
  · ext buffer
    simp only [Finset.mem_filter, leases, accounted.mem_resident_iff_onAccelerator,
      accountedAfter.mem_resident_iff_onAccelerator]
    exact and_congr_left fun leased => (stays buffer leased).1
  · exact (stays buffer (Finset.mem_filter.1 member).2).2

/-- As long as nobody leases what is made, the leased buffers stay where they are. -/
theorem pinnedExtent_frame
    {made written : Set BufferId}
    {others othersAfter : Others α}
    (accounted : before.Accounted make others)
    (accountedAfter : after.Accounted make othersAfter)
    (frame : Frame made written before after)
    (unleased : ∀ buffer ∈ made, before.leasesOf buffer = 0 ∧ after.leasesOf buffer = 0) :
    after.pinnedExtent = before.pinnedExtent := by
  refine pinnedExtent_congr accounted accountedAfter (fun buffer => ?_) fun buffer leased => ?_
  · by_cases new : buffer ∈ made
    · rw [(unleased buffer new).1, (unleased buffer new).2]
    · exact leasesOf_frame frame new
  · have old : buffer ∉ made := fun new => Nat.ne_of_gt leased (unleased buffer new).1
    obtain ⟨claim, claimed, positive⟩ := exists_claim_of_leased leased
    refine ⟨?_, lengthOf_frame frame old⟩
    rw [OnAccelerator, OnAccelerator, frame.pinned buffer claim old claimed positive]

/-- A step that makes nothing. -/
theorem pinnedExtent_still
    {written : Set BufferId}
    {others othersAfter : Others α}
    (accounted : before.Accounted make others)
    (accountedAfter : after.Accounted make othersAfter)
    (frame : Frame ∅ written before after) :
    after.pinnedExtent = before.pinnedExtent :=
  pinnedExtent_frame accounted accountedAfter frame
    fun _ absent => absurd absent (Set.notMem_empty _)

omit [Arithmetic α] in
/-- If all buffers on the accelerator are leased, then just these are in use. -/
theorem Within.used_eq_pinnedExtent
    (within : store.Within make quota)
    (leased : ∀ buffer, store.OnAccelerator buffer → ¬ store.Idle buffer) :
    store.accelerator.pool.used = store.pinnedExtent := by
  rw [within.used_eq, pinnedExtent, Finset.filter_true_of_mem]
  intro buffer member
  refine Nat.pos_of_ne_zero fun unleased =>
    leased buffer (within.accounted.mem_resident_iff_onAccelerator.1 member) ?_
  intro claim claimed
  rwa [leasesOf, claimed, Option.elim_some] at unleased

omit [Arithmetic α] in
theorem Within.pinnedExtent_le_capacity (within : store.Within make quota) :
    store.pinnedExtent ≤ make.capacity := by
  refine Nat.le_trans ?_ within.used_le_capacity
  rw [within.used_eq]
  exact Finset.sum_le_sum_of_subset (Finset.filter_subset _ _)

omit [Arithmetic α] in
/-- All leased buffers are listed. -/
theorem Within.pinnedExtent_le_loadOf
    {held : List (BufferId × Nat)}
    (within : store.Within make (quotaOf held)) :
    store.pinnedExtent ≤ loadOf held := by
  refine sum_le_loadOf fun buffer member => ?_
  obtain ⟨claim, claimed, positive⟩ := exists_claim_of_leased (Finset.mem_filter.1 member).2
  have enough := within.leases buffer claim claimed
  have counted : 0 < held.count (buffer, claim.length) := Nat.lt_of_lt_of_le positive enough
  rw [lengthOf, claimed, Option.elim_some]
  exact List.count_pos_iff.1 counted

/-! ## Evictions -/

omit [Arithmetic α] in
theorem Accounted.faults_eq_none
    {others : Others α}
    (accounted : store.Accounted make others)
    (steady : make.Steady)
    (method : Method)
    (index : Nat) :
    store.accelerator.faults method index = none := by
  have same : store.accelerator.faults = make.faults := congrArg Make.faults accounted.made
  rw [same, steady]

omit [Arithmetic α] in
/-- A call that the accelerator has no reason to refuse. -/
theorem ends_call
    {others : Others α}
    {method : Method}
    {act : Pool α → Except DeviceError (β × Pool α)}
    {answer : β}
    {pool : Pool α}
    {failed : Error → Store α → Prop}
    (steady : make.Steady)
    (accounted : before.Accounted make others)
    (acted : act before.accelerator.pool = .ok (answer, pool)) :
    Ends (perform (Accelerator.call method act)) before
      (fun given after => given = answer ∧ ∃ calls, after = before.called calls pool) failed := by
  unfold perform
  rw [ends_bind_iff]
  unfold Ends Store.attempt Accelerator.call
  simp only [accounted.faults_eq_none steady, acted]
  exact ⟨rfl, _, rfl⟩

omit [Arithmetic α] in
/-- What fails on the pool fails. -/
theorem ends_call_of_error
    {others : Others α}
    {method : Method}
    {act : Pool α → Except DeviceError (β × Pool α)}
    {reason : DeviceError}
    (steady : make.Steady)
    (accounted : before.Accounted make others)
    (failed : act before.accelerator.pool = .error reason) :
    Ends (perform (Accelerator.call method act)) before (fun _ _ => False)
      (fun failure _ => failure = Error.ofDevice reason) := by
  unfold perform
  rw [ends_bind_iff]
  unfold Ends Store.attempt Accelerator.call
  simp only [accounted.faults_eq_none steady, failed]
  rfl

theorem ends_moveToHost_of_steady
    {others : Others α}
    {failed : Error → Store α → Prop}
    (steady : make.Steady)
    (accounted : before.Accounted make others)
    (live : ∃ claim, before.claim? buffer = some claim) :
    Ends (moveToHost buffer) before (fun _ _ => True) failed := by
  unfold moveToHost
  rw [ends_bind_iff]
  refine ends_find ?_ fun absent => ?_
  · intro found claimed held
    have fits := accounted.valid.fits buffer _ _ claimed held
    cases contents : found.contents with
    | host values => trivial
    | empty => trivial
    | device block =>
      rw [contents] at fits
      obtain ⟨-, -, values, stored, size⟩ := fits
      obtain ⟨after, downloaded⟩ := Pool.download_isOk stored
      rw [size] at downloaded
      dsimp only
      rw [ends_bind_iff]
      exact (ends_call steady accounted downloaded).mono (fun _ _ _ => trivial)
        fun _ _ failed => failed
  · obtain ⟨claim, claimed⟩ := live
    rw [absent] at claimed
    cases claimed

/-- What evictions do: they free a number of elements and bring nothing to the accelerator. -/
structure Evicts (make : Make) (quota : Quota) (freed : Nat) (before after : Store α) : Prop where
  within : after.Within make quota
  frame : Frame ∅ ∅ before after
  used : after.accelerator.pool.used + freed = before.accelerator.pool.used
  leaves : ∀ buffer, after.OnAccelerator buffer → before.OnAccelerator buffer

theorem Evicts.refl (within : store.Within make quota) : Evicts make quota 0 store store where
  within := within
  frame := .refl within.accounted.valid
  used := rfl
  leaves _ there := there

theorem Evicts.trans
    {middle : Store α}
    {gained freed : Nat}
    (first : Evicts make quota gained before middle)
    (second : Evicts make quota freed middle after) :
    Evicts make quota (gained + freed) before after where
  within := second.within
  frame := first.frame.trans_empty second.frame
  used := by
    rw [← first.used, ← second.used]
    omega
  leaves buffer there := first.leaves buffer (second.leaves buffer there)

/-- A buffer that nobody leases leaves the accelerator, where its elements are free then. -/
theorem ends_evict_of_steady
    {failed : Error → Store α → Prop}
    (steady : make.Steady)
    (within : before.Within make quota)
    (there : before.OnAccelerator buffer)
    (idle : before.Idle buffer) :
    Ends (evict buffer) before
      (fun freed after => Evicts make quota freed before after ∧ ¬ after.OnAccelerator buffer ∧
        ∀ other, buffer ≠ other → after.contents? other = before.contents? other)
      failed := by
  have valid := within.accounted.valid
  obtain ⟨block, stored⟩ := there
  obtain ⟨claim, claimed⟩ := exists_claim stored
  have moves : Ends (moveToHost buffer) before (fun _ _ => True) (fun _ _ => False) :=
    ends_moveToHost_of_steady steady within.accounted ⟨_, claimed⟩
  rw [ends_evict_iff, ends_bind_iff]
  refine ends_find ?_ fun absent => ?_
  · intro found claimed _
    rw [ends_bind_iff]
    refine ((accounted_moveToHost before within.accounted).and
      ((ends_moveToHost valid idle).and moves)).mono ?_ fun _ _ never => never.2.2.elim
    rintro _ after ⟨books, ⟨frame, -, others, values, final, -⟩, -⟩
    have gone : ¬ after.OnAccelerator buffer := by
      rintro ⟨_, there⟩
      rw [final] at there
      cases there
    have same : ∀ other, buffer ≠ other → (after.OnAccelerator other ↔
        before.OnAccelerator other) := by
      intro other different
      unfold OnAccelerator
      rw [others other different]
    have after_within := within.of_frame books frame
      fun _ absent => absurd absent (Set.notMem_empty _)
    have lengths : after.lengthOf = before.lengthOf := by
      funext other
      rw [lengthOf, frame.claims other (Set.notMem_empty _), lengthOf]
    have resident : after.resident = before.resident.erase buffer := by
      ext other
      rw [Finset.mem_erase, books.mem_resident_iff_onAccelerator,
        within.accounted.mem_resident_iff_onAccelerator]
      by_cases isBuffer : other = buffer
      · subst isBuffer
        exact ⟨fun there => absurd there gone, fun both => absurd rfl both.1⟩
      · rw [same other (Ne.symm isBuffer)]
        exact ⟨fun there => ⟨isBuffer, there⟩, fun both => both.2⟩
    have member : buffer ∈ before.resident :=
      within.accounted.mem_resident_iff_onAccelerator.2 ⟨block, stored⟩
    refine ⟨⟨after_within, frame, ?_, fun other there => ?_⟩, gone, others⟩
    · have length : found.length = before.lengthOf buffer := by
        rw [lengthOf, claimed]
        rfl
      rw [after_within.used_eq, within.used_eq, resident, lengths, length]
      exact Finset.sum_erase_add _ _ member
    · exact (same other fun same => gone (same ▸ there)).1 there
  · rw [absent] at claimed
    cases claimed

/-- Evictions go on until enough is free or none of the buffers is on the accelerator. -/
theorem ends_evictUntil_of_steady
    {failed : Error → Store α → Prop}
    (steady : make.Steady)
    (within : before.Within make quota)
    (target freed : Nat)
    {buffers : List BufferId}
    (distinct : buffers.Nodup)
    (there : ∀ buffer ∈ buffers, before.OnAccelerator buffer)
    (idle : ∀ buffer ∈ buffers, before.Idle buffer) :
    Ends (evictUntil target buffers freed) before
      (fun total after => ∃ gained, total = freed + gained ∧
        Evicts make quota gained before after ∧
        (target ≤ total ∨ ∀ buffer ∈ buffers, ¬ after.OnAccelerator buffer))
      failed := by
  induction buffers generalizing before freed with
  | nil => exact ⟨0, rfl, .refl within, .inr fun _ absent => absurd absent List.not_mem_nil⟩
  | cons buffer buffers step =>
    obtain ⟨isNew, distinct⟩ := List.nodup_cons.1 distinct
    rw [evictUntil]
    split
    next enough => exact ⟨0, rfl, .refl within, .inl enough.2⟩
    rw [ends_bind_iff]
    refine (ends_evict_of_steady steady within (there buffer List.mem_cons_self)
      (idle buffer List.mem_cons_self)).mono ?_ fun _ _ failed => failed
    rintro gained middle ⟨first, gone, others⟩
    refine (step first.within (freed + gained) distinct ?_ ?_).mono ?_ fun _ _ failed => failed
    · intro other member
      have different : buffer ≠ other := fun same => isNew (same ▸ member)
      obtain ⟨block, stored⟩ := there other (List.mem_cons_of_mem _ member)
      exact ⟨block, (others other different).trans stored⟩
    · exact fun other member => first.frame.idle (idle other (List.mem_cons_of_mem _ member))
    · rintro total after ⟨more, rfl, second, ends⟩
      refine ⟨gained + more, Nat.add_assoc .., first.trans second, ends.imp_right fun rest => ?_⟩
      rintro other (_ | member)
      · exact fun there => gone (second.leaves _ there)
      · exact rest other (by assumption)

omit [Arithmetic α] in
/-- A buffer that is on the accelerator and that nobody leases may be moved off it. -/
theorem Within.mem_evictable
    (within : store.Within make quota)
    (there : store.OnAccelerator buffer)
    (idle : store.Idle buffer) :
    buffer ∈ store.evictable (some store.accelerator.pool.id) := by
  obtain ⟨block, stored⟩ := there
  obtain ⟨found, present, contents⟩ := Option.map_eq_some_iff.1 stored
  have claimed : store.claim? buffer = some found.claim := by rw [claim?, present]; rfl
  have located := within.accounted.located buffer _ stored
  rw [location?, present] at located
  obtain ⟨-, device, -⟩ := within.accounted.valid.fits buffer _ _ claimed stored
  refine List.mem_map.2 ⟨(buffer, found), ?_, rfl⟩
  rw [List.mem_mergeSort, List.mem_filter, mem_registered]
  refine ⟨⟨within.accounted.listed buffer _ stored, present⟩, ?_⟩
  have location : found.location = .accelerator := Option.some.inj located
  have unleased : found.leases = 0 := idle found.claim claimed
  simp [Buffer.isEvictable, location, unleased, contents, device]

omit [Arithmetic α] in
theorem onAccelerator_of_mem_evictable
    {device : Option DeviceId}
    (member : buffer ∈ store.evictable device) :
    store.OnAccelerator buffer := by
  obtain ⟨⟨name, found⟩, inside, rfl⟩ := List.mem_map.1 member
  rw [List.mem_mergeSort, List.mem_filter, mem_registered] at inside
  obtain ⟨⟨-, present⟩, fit⟩ := inside
  simp only [Buffer.isEvictable, Bool.and_eq_true, beq_iff_eq] at fit
  obtain ⟨-, onDevice⟩ := fit
  split at onDevice
  next block contents => exact ⟨block, by rw [contents?, present, Option.map_some, contents]⟩
  · cases onDevice

omit [Arithmetic α] in
theorem Accounted.nodup_evictable
    {others : Others α}
    (accounted : store.Accounted make others)
    (device : Option DeviceId) :
    (store.evictable device).Nodup := by
  have names : (store.registered.map Prod.fst).Sublist store.registry := by
    unfold registered
    induction store.registry with
    | nil => exact .slnil
    | cons name names step =>
      rw [List.filterMap_cons]
      cases store.buffers.get? name with
      | none => exact step.cons name
      | some found => exact step.cons_cons name
  have kept : ((store.registered.filter (·.2.isEvictable device)).map Prod.fst).Nodup :=
    (accounted.distinct.sublist names).sublist (List.filter_sublist.map _)
  exact ((List.mergeSort_perm _ _).map Prod.fst).nodup_iff.2 kept

/-- Evictions set a number of elements free, unless only leased buffers are left. -/
theorem ends_offload_of_steady
    {failed : Error → Store α → Prop}
    (steady : make.Steady)
    (within : before.Within make quota)
    (target : Nat) :
    Ends (offload target (some before.accelerator.pool.id)) before
      (fun freed after => Evicts make quota freed before after ∧
        (target ≤ freed ∨ ∀ buffer, after.OnAccelerator buffer → ¬ after.Idle buffer))
      failed := by
  unfold offload
  rw [ends_bind_iff, ends_get_iff]
  refine (ends_evictUntil_of_steady steady within target 0 (within.accounted.nodup_evictable _)
    (fun _ member => onAccelerator_of_mem_evictable member)
    fun _ member => (evictable_of_mem member).idle).mono ?_ fun _ _ failed => failed
  rintro freed after ⟨gained, total, evicts, ends⟩
  rw [Nat.zero_add] at total
  subst total
  refine ⟨evicts, ends.imp_right fun gone buffer there idle => ?_⟩
  have idleBefore : before.Idle buffer := by
    intro claim claimed
    rw [← evicts.frame.claims buffer (Set.notMem_empty _)] at claimed
    exact idle claim claimed
  exact gone buffer (within.mem_evictable (evicts.leaves buffer there) idleBefore) there

/-! ## Allocation -/

/-- The accelerator grants a block if as many elements are free. -/
theorem ends_attempt_allocate_of_steady
    {failed : Error → Store α → Prop}
    (steady : make.Steady)
    (within : before.Within make quota)
    (length : Nat) :
    Ends (attempt (Accelerator.allocate length)) before
      (fun outcome after => (∃ block, outcome = .ok block) ∨
        (∃ available, outcome = .error (.outOfMemory length available)) ∧
          after.Within make quota ∧ Alike before after ∧
          make.capacity < before.accelerator.pool.used + length)
      failed := by
  have capacity : before.accelerator.pool.capacity = make.capacity :=
    congrArg Make.capacity within.accounted.made
  unfold Ends Store.attempt Accelerator.allocate Accelerator.call Pool.allocate
  by_cases short : before.accelerator.pool.available < length
  · simp only [within.accounted.faults_eq_none steady, short, if_true]
    refine .inr ⟨⟨_, rfl⟩, ⟨within.accounted.refused _, within.leases⟩, alike_called before _, ?_⟩
    unfold Pool.available at short
    omega
  · simp only [within.accounted.faults_eq_none steady, short, if_false]
    exact .inl ⟨_, rfl⟩

/-- A block is refused only if the leased buffers leave too little room for it. -/
theorem ends_allocateBlock_full
    (steady : make.Steady)
    (within : before.Within make quota)
    (length : Nat) :
    Ends (allocateBlock length) before (fun _ _ => True)
      (fun reason _ =>
        Exhausted make.capacity (before.pinnedExtent + length) length reason) := by
  unfold allocateBlock
  rw [ends_bind_iff]
  refine (ends_attempt_allocate_of_steady steady within length).mono ?_ fun _ _ never => never
  rintro outcome middle (⟨block, rfl⟩ | ⟨⟨available, rfl⟩, refused, alike, -⟩)
  · trivial
  have pinned := pinnedExtent_still within.accounted refused.accounted
    (alike.frame within.accounted.valid)
  dsimp only
  rw [ends_bind_iff, ends_get_iff, ends_bind_iff]
  refine (ends_offload_of_steady steady refused length).mono ?_ fun _ _ never => never
  rintro freed evicted ⟨evicts, ends⟩
  rw [ends_bind_iff]
  refine (ends_attempt_allocate_of_steady steady evicts.within length).mono ?_
    fun _ _ never => never
  rintro outcome after (⟨block, rfl⟩ | ⟨⟨available, rfl⟩, -, -, short⟩)
  · trivial
  refine ⟨⟨freed, rfl⟩, ?_⟩
  rcases ends with enough | leased
  · have most := refused.used_le_capacity
    have used := evicts.used
    omega
  · have least := evicts.within.used_eq_pinnedExtent leased
    have pinnedEvicted := pinnedExtent_still refused.accounted evicts.within.accounted evicts.frame
    omega

/-- A buffer is refused on the accelerator only if the leased ones leave too little room. -/
theorem ends_moveToAccelerator_full
    {claim : Claim}
    (steady : make.Steady)
    (within : before.Within make quota)
    (claimed : before.claim? buffer = some claim) :
    Ends (moveToAccelerator buffer) before (fun _ _ => True)
      (fun reason _ =>
        Exhausted make.capacity (before.pinnedExtent + claim.length) claim.length reason) := by
  unfold moveToAccelerator
  rw [ends_bind_iff]
  refine ends_find ?_ fun absent => ?_
  · intro found sameClaim stored
    have length : found.length = claim.length := by
      rw [claimed] at sameClaim
      rw [Option.some.inj sameClaim]
      rfl
    have fits := within.accounted.valid.fits buffer _ _ sameClaim stored
    have granted := ends_allocateBlock_full steady within found.length
    rw [length] at granted
    cases contents : found.contents with
    | device block => trivial
    | empty =>
      dsimp only
      rw [ends_bind_iff, length]
      exact granted.mono (fun _ _ _ => trivial) fun _ _ exhausted => exhausted
    | host values =>
      rw [contents] at fits
      have size : values.size = claim.length := Eq.trans fits length
      dsimp only
      rw [ends_bind_iff, length]
      have books := ends_allocateBlock_accounted within.accounted claim.length
      refine ((ends_allocateBlock within.accounted.valid claim.length).and
        (books.and granted)).mono ?_ fun _ _ exhausted => exhausted.2.2
      rintro block middle ⟨⟨-, -, grant⟩, pending, -⟩
      obtain ⟨after, uploaded⟩ := Pool.upload_isOk grant.zeros
        (show (zeros α claim.length).size = values.size by rw [size_zeros, size])
      have acted : ((((), ·) : Pool α → Unit × Pool α) <$>
          middle.accelerator.pool.upload block values) = .ok ((), after) :=
        map_eq_ok_iff.2 ⟨after, uploaded, rfl⟩
      rw [ends_bind_iff, ends_unlessDone_iff]
      exact (ends_call steady pending.accounted acted).mono (fun _ _ _ => trivial)
        fun _ _ never => never
  · rw [absent] at claimed
    cases claimed

/-! ## Leases -/

omit [Arithmetic α] in
theorem Free.idle (free : store.Free buffer) : store.Idle buffer := by
  obtain ⟨claim, claimed, unleased⟩ := free
  exact idle_of_claim claimed unleased

theorem Free.frame
    {made written : Set BufferId}
    (free : before.Free buffer)
    (frame : Frame made written before after)
    (old : buffer ∉ made) :
    after.Free buffer := by
  obtain ⟨claim, claimed, unleased⟩ := free
  exact ⟨claim, (frame.claims buffer old).trans claimed, unleased⟩

omit [Arithmetic α] in
theorem lengthOf_pin (other : BufferId) :
    (store.pin buffer).lengthOf other = store.lengthOf other := by
  rw [lengthOf, claim?_pin, lengthOf]
  split
  · cases store.claim? other <;> rfl
  · rfl

omit [Arithmetic α] in
theorem Free.touch (free : store.Free buffer) : (store.touch buffer).Free buffer := by
  obtain ⟨claim, claimed, unleased⟩ := free
  exact ⟨claim, by rw [(alike_touch store buffer).claim?, claimed], unleased⟩

/-- A lease of a free buffer fails only if the buffer cannot be moved. -/
theorem ends_lease_of_free
    {tier : Tier}
    {failed : Error → Store α → Prop}
    (stored : tier ≠ .empty)
    (free : before.Free buffer)
    (moves : Ends (move buffer tier) (before.touch buffer) (fun _ _ => True) failed) :
    Ends (lease buffer tier) before (fun _ _ => True) failed := by
  obtain ⟨claim, claimed, unleased⟩ := free.touch
  unfold lease
  rw [if_neg stored, ends_bind_iff, ends_modify_iff, ends_bind_iff]
  refine ends_find ?_ fun absent => ?_
  · intro found sameClaim _
    have none : ¬ 0 < found.leases := by
      rw [claimed] at sameClaim
      rw [Option.some.inj sameClaim] at unleased
      exact fun positive => Nat.ne_of_gt positive unleased
    split
    · dsimp only
      rw [ends_bind_iff]
      exact moves.mono (fun _ _ _ => trivial) fun _ _ failed => failed
    · trivial
  · rw [absent] at claimed
    cases claimed

section

variable
    {held : List (BufferId × Nat)}
    {done : β → Prop}
    {failed : Error → Prop}
    {body : Action α β}
    (steady : make.Steady)
    (within : before.Within make (quotaOf held))

include steady within

/--
An action under a lease.  The lease fails only if there is too little room, and the
action runs with one more buffer among those that are leased.
-/
theorem ends_withLease_full
    (free : before.Free buffer)
    (full : ∀ reason, Full make.capacity (before.lengthOf buffer + loadOf held) reason →
      failed reason)
    (run : ∀ middle, Frame ∅ ∅ before middle → middle.OnTier buffer .accelerator →
      (middle.pin buffer).Within make (quotaOf ((buffer, before.lengthOf buffer) :: held)) →
      Ends body (middle.pin buffer) (fun answer _ => done answer) fun reason _ => failed reason) :
    Ends (withLease buffer .accelerator body) before
      (fun answer _ => done answer) fun reason _ => failed reason := by
  obtain ⟨claim, claimed, unleased⟩ := free
  have length : before.lengthOf buffer = claim.length := by
    rw [lengthOf, claimed, Option.elim_some]
  have touched : (before.touch buffer).Within make (quotaOf held) :=
    within.of_frame within.accounted.touch
      ((alike_touch before buffer).frame within.accounted.valid)
      fun _ absent => absurd absent (Set.notMem_empty _)
  have moved := ends_moveToAccelerator_full steady touched
    (by rw [(alike_touch before buffer).claim?]; exact claimed)
  have leased : Ends (lease buffer .accelerator) before (fun _ _ => True)
      (fun reason _ => Full make.capacity (loadOf held + claim.length) reason) :=
    ends_lease_of_free nofun ⟨claim, claimed, unleased⟩ (moved.mono (fun _ _ done => done)
      fun _ _ exhausted =>
        exhausted.full.mono (Nat.add_le_add_right touched.pinnedExtent_le_loadOf _))
  unfold withLease
  rw [ends_bind_iff]
  refine ((accounted_lease before within.accounted).and
    ((ends_lease within.accounted.valid).and leased)).mono ?_ ?_
  · rintro _ _ ⟨books, ⟨middle, frame, onTier, rfl⟩, -⟩
    rw [ends_followedBy_iff]
    refine run middle frame onTier ⟨books, fun other found present => ?_⟩
    rw [← more_quotaOf, Quota.more]
    rw [claim?_pin, frame.claims other (Set.notMem_empty _)] at present
    split at present
    next same =>
      subst same
      rw [claimed] at present
      cases present
      rw [if_pos ⟨rfl, length⟩]
      exact Nat.succ_le_succ (within.leases buffer claim claimed)
    next different =>
      rw [if_neg fun both => different both.1]
      exact within.leases other found present
  · rintro reason _ ⟨-, -, exhausted⟩
    refine full reason (exhausted.mono ?_)
    rw [length, Nat.add_comm]

/-- With enough room, an action under a lease fails only on its own account. -/
theorem ends_withLease_of_room
    {failed : Error → Store α → Prop}
    (free : before.Free buffer)
    (room : before.lengthOf buffer + loadOf held ≤ make.capacity)
    (run : ∀ middle, Frame ∅ ∅ before middle → middle.OnTier buffer .accelerator →
      (middle.pin buffer).Within make (quotaOf ((buffer, before.lengthOf buffer) :: held)) →
      Ends body (middle.pin buffer) (fun _ _ => True) fun _ _ => False) :
    Ends (withLease buffer .accelerator body) before (fun _ _ => True) failed := by
  have whole : Ends (withLease buffer .accelerator body) before (fun _ _ => True)
      fun _ _ => False :=
    ends_withLease_full steady within free
      (fun _ full => Nat.not_lt_of_le room full.exceeds) run
  exact whole.mono (fun _ _ _ => trivial) fun _ _ never => never.elim

end

omit [Arithmetic α] in
theorem quotaOf_perm
    {held others : List (BufferId × Nat)}
    (perm : held.Perm others) :
    quotaOf held = quotaOf others := by
  funext buffer length
  exact perm.count_eq _

omit [Arithmetic α] in
theorem loadOf_perm
    {held others : List (BufferId × Nat)}
    (perm : held.Perm others) :
    loadOf held = loadOf others :=
  (perm.map Prod.snd).sum_eq

/-- The leases on some buffers, besides others. -/
def leasing (store : Store α) (buffers : List BufferId) (held : List (BufferId × Nat)) :
    List (BufferId × Nat) :=
  (buffers.map fun buffer => (buffer, store.lengthOf buffer)) ++ held

omit [Arithmetic α] in
theorem loadOf_leasing
    (store : Store α)
    (buffers : List BufferId)
    (held : List (BufferId × Nat)) :
    loadOf (store.leasing buffers held) = store.extent buffers + loadOf held := by
  rw [loadOf, leasing, List.map_append, List.sum_append, List.map_map]
  rfl

section

variable
    {held : List (BufferId × Nat)}
    {done : β → Prop}
    {failed : Error → Prop}
    {body : Action α β}
    {buffers : List BufferId}
    (steady : make.Steady)
    (within : before.Within make (quotaOf held))
    (distinct : buffers.Nodup)
    (free : ∀ buffer ∈ buffers, before.Free buffer)
    (full : ∀ reason, Full make.capacity (loadOf (before.leasing buffers held)) reason →
      failed reason)
    (run : ∀ inside, Leased buffers before inside →
      inside.Within make (quotaOf (before.leasing buffers held)) →
      Ends body inside (fun answer _ => done answer) fun reason _ => failed reason)

include steady within distinct free full run

theorem ends_withLeasesInOrder_full :
    Ends (withLeasesInOrder buffers body) before
      (fun answer _ => done answer) fun reason _ => failed reason := by
  induction buffers generalizing before held with
  | nil => exact run before (.refl within.accounted.valid) within
  | cons buffer buffers step =>
    obtain ⟨isNew, distinct⟩ := List.nodup_cons.1 distinct
    rw [withLeasesInOrder]
    refine ends_withLease_full steady within (free buffer List.mem_cons_self) ?_ ?_
    · refine fun reason exhausted => full reason (exhausted.mono ?_)
      rw [loadOf_leasing, extent, List.map_cons, List.sum_cons]
      omega
    · intro middle frame onTier pinned
      have live := onTier
      obtain ⟨contents, stored, -⟩ := live
      obtain ⟨claim, claimed⟩ := exists_claim stored
      have lengths : ∀ other, (middle.pin buffer).lengthOf other = before.lengthOf other := by
        intro other
        rw [lengthOf_pin, lengthOf_frame frame (Set.notMem_empty _)]
      have perm : ((middle.pin buffer).leasing buffers
          ((buffer, before.lengthOf buffer) :: held)).Perm
            (before.leasing (buffer :: buffers) held) := by
        simp only [leasing, lengths, List.map_cons, List.cons_append]
        exact List.perm_middle
      refine step pinned distinct (fun other member => ?_) (fun reason exhausted => ?_)
        fun inside leased booked => ?_
      · obtain ⟨claim, claimed, unleased⟩ := free other (List.mem_cons_of_mem _ member)
        have different : ¬ buffer = other := fun same => isNew (same ▸ member)
        refine ⟨claim, ?_, unleased⟩
        rw [claim?_pin, if_neg different, frame.claims other (Set.notMem_empty _), claimed]
      · exact full reason (loadOf_perm perm ▸ exhausted)
      · exact run inside (leased.cons frame onTier claimed) (quotaOf_perm perm ▸ booked)

/-- An action under several leases fails for want of room only if not all of them fit. -/
theorem ends_withLeases_full :
    Ends (withLeases buffers body) before
      (fun answer _ => done answer) fun reason _ => failed reason := by
  have perm := List.mergeSort_perm buffers fun left right => left.index ≤ right.index
  have leases : (before.leasing (buffers.mergeSort fun left right => left.index ≤ right.index)
      held).Perm (before.leasing buffers held) := (perm.map _).append_right held
  unfold withLeases
  refine ends_withLeasesInOrder_full steady within (perm.nodup_iff.2 distinct)
    (fun buffer member => free buffer (perm.mem_iff.1 member))
    (fun reason exhausted => full reason (loadOf_perm leases ▸ exhausted))
    fun inside leased booked => ?_
  exact run inside (leased.perm perm) (quotaOf_perm leases ▸ booked)

end

theorem Leased.lengthOf
    {inside : Store α}
    {buffers : List BufferId}
    (leased : Leased buffers before inside)
    (other : BufferId) :
    inside.lengthOf other = before.lengthOf other := by
  rw [Store.lengthOf, leased.claims, Store.lengthOf]
  cases before.claim? other <;> rfl

theorem Leased.free
    {inside : Store α}
    {buffers : List BufferId}
    (leased : Leased buffers before inside)
    (free : before.Free buffer)
    (apart : buffer ∉ buffers) :
    inside.Free buffer := by
  obtain ⟨claim, claimed, unleased⟩ := free
  refine ⟨_, by rw [leased.claims, claimed, Option.map_some], ?_⟩
  rw [unleased, List.count_eq_zero_of_not_mem apart]

/-! ## Launches -/

/-- Blocks of buffers may be read by a launch, and those that are long enough may be written. -/
theorem launchable_of_stored
    (valid : store.Valid)
    {length : Nat}
    {sources targets : List BufferId}
    {inputs outputs : List Block}
    (read : List.Forall₂ (fun buffer block => store.contents? buffer = some (.device block))
      sources inputs)
    (written : List.Forall₂ (fun buffer block => store.contents? buffer = some (.device block))
      targets outputs)
    (long : ∀ target ∈ targets, length ≤ store.lengthOf target) :
    store.accelerator.pool.Launchable length inputs outputs := by
  refine ⟨fun output member => ?_, fun input member => ?_⟩
  · obtain ⟨target, among, stored⟩ := exists_of_forall₂ written.flip output member
    obtain ⟨claim, claimed⟩ := exists_claim stored
    obtain ⟨-, -, values, live, size⟩ := valid.fits target _ _ claimed stored
    have enough := long target among
    rw [lengthOf, claimed, Option.elim_some, ← size] at enough
    exact ⟨values, live, enough⟩
  · obtain ⟨source, -, stored⟩ := exists_of_forall₂ read.flip input member
    obtain ⟨values, reads, -⟩ := exists_reading_of_device valid stored
    exact ⟨values, reading?_of_device stored ▸ reads⟩

section

variable
    {others : Others α}
    {ω : Type}
    {length : Nat}
    {sources targets : List BufferId}
    {inputs outputs : List Block}
    {kernel : Kernel α ω}
    (steady : make.Steady)
    (accounted : store.Accounted make others)
    (read : List.Forall₂ (fun buffer block => store.contents? buffer = some (.device block))
      sources inputs)
    (written : List.Forall₂ (fun buffer block => store.contents? buffer = some (.device block))
      targets outputs)
    (long : ∀ target ∈ targets, length ≤ store.lengthOf target)

include steady accounted read written long

/-- A launch between blocks of buffers is refused only if its kernel fails. -/
theorem ends_launch_rows
    {views : List (Array α)}
    (viewed : List.Forall₂ (fun buffer values => store.reading? buffer = some values)
      sources views) :
    Ends (perform (Accelerator.launch length inputs outputs kernel)) store
      (fun _ _ => ∃ rows,
        kernel.rows views.toArray (if outputs.isEmpty then 0 else length) = .ok rows)
      (fun failure _ => ∃ reason,
        kernel.rows views.toArray (if outputs.isEmpty then 0 else length) = .error reason ∧
          failure = .fault reason) := by
  have launchable := launchable_of_stored accounted.valid read written long
  have contents : store.accelerator.pool.Views inputs views := by
    refine List.forall₂_iff_get.2 ⟨read.length_eq.symm.trans viewed.length_eq, ?_⟩
    intro position inInputs inViews
    have inSources : position < sources.length := by
      rw [read.length_eq]
      exact inInputs
    rw [← reading?_of_device (read.get inSources inInputs)]
    exact viewed.get inSources inViews
  cases ran : kernel.rows views.toArray (if outputs.isEmpty then 0 else length) with
  | ok rows =>
    have acted : ((((), ·) : Pool α → Unit × Pool α) <$>
        store.accelerator.pool.launch length inputs outputs kernel) = .ok ((), _) :=
      map_eq_ok_iff.2 ⟨_, Pool.launch_of_launchable launchable contents ran, rfl⟩
    exact (ends_call steady accounted acted).mono (fun _ _ _ => ⟨rows, rfl⟩)
      fun _ _ never => never
  | error reason =>
    have failed : ((((), ·) : Pool α → Unit × Pool α) <$>
        store.accelerator.pool.launch length inputs outputs kernel) = .error (.fault reason) :=
      map_eq_error_iff.2 (Pool.launch_of_fault launchable contents ran)
    refine (ends_call_of_error steady accounted failed).mono (fun _ _ never => never.elim) ?_
    rintro _ _ rfl
    exact ⟨reason, rfl, rfl⟩

/-- A launch whose kernel computes all rows is not refused. -/
theorem ends_launch_of_steady
    {failed : Error → Store α → Prop}
    (computes : ∀ views,
      List.Forall₂ (fun buffer values => store.reading? buffer = some values) sources views →
      ∃ rows, kernel.rows views.toArray (if outputs.isEmpty then 0 else length) = .ok rows) :
    Ends (perform (Accelerator.launch length inputs outputs kernel)) store
      (fun _ _ => True) failed := by
  obtain ⟨views, viewed⟩ := exists_readings accounted.valid read
  obtain ⟨rows, ran⟩ := computes views viewed
  refine (ends_launch_rows steady accounted read written long viewed).mono
    (fun _ _ _ => trivial) ?_
  rintro _ _ ⟨reason, failed, -⟩
  cases ran.symm.trans failed

end

/-! ## Reads and releases -/

omit [Arithmetic α] in
theorem ends_claim_of_free
    {failed : Error → Store α → Prop}
    (free : before.Free buffer) :
    Ends (claim buffer) before (fun _ after => after = before.touch buffer) failed := by
  obtain ⟨claim, claimed, unleased⟩ := free
  unfold Store.claim
  rw [ends_bind_iff]
  refine ends_find ?_ fun absent => ?_
  · intro found sameClaim _
    rw [claimed] at sameClaim
    rw [Option.some.inj sameClaim] at unleased
    have none : ¬ 0 < found.leases := fun positive => Nat.ne_of_gt positive unleased
    rw [if_neg none]
    rfl
  · rw [absent] at claimed
    cases claimed

theorem ends_release_of_free
    {failed : Error → Store α → Prop}
    (free : before.Free buffer) :
    Ends (release buffer) before (fun _ _ => True) failed := by
  unfold release ensure
  rw [ends_bind_iff]
  exact (ends_claim_of_free free).mono (fun _ _ _ => trivial) fun _ _ never => never

/-- A buffer that can be leased on the host can be read. -/
theorem ends_read_of_leased
    {failed : Error → Store α → Prop}
    (valid : before.Valid)
    (leased : Ends (lease buffer .host) before (fun _ _ => True) fun _ _ => False) :
    Ends (read buffer) before (fun _ _ => True) failed := by
  unfold read withLease
  rw [ends_bind_iff]
  refine ((ends_lease valid).and leased).mono ?_ fun _ _ never => never.2.elim
  rintro _ _ ⟨⟨middle, frame, onTier, rfl⟩, -⟩
  have onHost : (middle.pin buffer).OnTier buffer .host := by
    unfold OnTier
    rw [contents?_pin]
    exact onTier
  rw [ends_followedBy_iff]
  exact (ends_hostValues onHost).mono (fun _ _ _ => trivial) fun _ _ never => never

section

variable
    {failed : Error → Store α → Prop}
    (steady : make.Steady)
    (within : before.Within make quota)
    (free : before.Free buffer)

include steady within free

theorem ends_moveToHost_of_free :
    Ends (moveToHost buffer) (before.touch buffer) (fun _ _ => True) failed := by
  obtain ⟨claim, claimed, -⟩ := free.touch
  exact ends_moveToHost_of_steady steady within.accounted.touch ⟨claim, claimed⟩

/-- A buffer that nobody leases can be read. -/
theorem ends_read_of_free :
    Ends (read buffer) before (fun _ _ => True) failed :=
  ends_read_of_leased within.accounted.valid
    (ends_lease_of_free nofun free (ends_moveToHost_of_free steady within free))

/-- A buffer that nobody leases can be changed. -/
theorem ends_update_of_free
    (change : (size : Nat) → Vector α size → Vector α size) :
    Ends (update buffer change) before (fun _ _ => True) failed := by
  unfold update
  rw [ends_bind_iff]
  refine (ends_claim_of_free free).mono ?_ fun _ _ never => never
  rintro _ _ rfl
  rw [ends_bind_iff]
  have moved : Ends (moveToHost buffer) (before.touch buffer) (fun _ _ => True)
      fun _ _ => False :=
    ends_moveToHost_of_free steady within free
  refine ((ends_moveToHost ((alike_touch before buffer).valid within.accounted.valid)
    free.touch.idle).and moved).mono ?_ fun _ _ never => never.2.elim
  rintro _ middle ⟨⟨-, -, -, values, stored, -⟩, -⟩
  rw [ends_bind_iff]
  exact (ends_hostValues ⟨_, stored, rfl⟩).mono (fun _ _ _ => trivial) fun _ _ never => never

/-- A buffer that nobody leases can be filled with one value. -/
theorem ends_fill_of_free (value : α) :
    Ends (fill buffer value) before (fun _ _ => True) failed := by
  unfold fill
  rw [ends_bind_iff]
  refine (ends_claim_of_free free).mono ?_ fun _ _ never => never
  rintro _ _ rfl
  have touched : (before.touch buffer).Accounted make ∅ := within.accounted.touch
  rw [ends_bind_iff]
  refine ends_find ?_ fun absent => ?_
  · intro found claimed held
    have fits := touched.valid.fits buffer _ _ claimed held
    cases contents : found.contents with
    | host values => trivial
    | empty => trivial
    | device block =>
      rw [contents] at fits
      obtain ⟨-, -, values, live, -⟩ := fits
      obtain ⟨pool, filled⟩ := Pool.fill_isOk live value
      have acted : ((((), ·) : Pool α → Unit × Pool α) <$>
          (before.touch buffer).accelerator.pool.fill block value) = .ok ((), pool) :=
        map_eq_ok_iff.2 ⟨pool, filled, rfl⟩
      exact (ends_call steady touched acted).mono (fun _ _ _ => trivial) fun _ _ never => never
  · obtain ⟨claim, claimed, -⟩ := free.touch
    rw [absent] at claimed
    cases claimed

end

end Store

end Elementwise
