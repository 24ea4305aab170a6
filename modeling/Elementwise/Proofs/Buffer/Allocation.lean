import Elementwise.Proofs.Buffer.Eviction
import Elementwise.Proofs.Buffer.Pinning

/-!
# When a block is granted

A block that does not fit what is free is asked for once more, after buffers
that nobody leases were moved to the host.  On an accelerator that never fails,
these evictions go on until enough is free or nothing is left to evict.  So a
block is granted just if it fits beside the leased buffers and the blocks of
others, whatever else is on the accelerator.

What others hold is the same before and after, which is why the sums over the
buffers settle how much is free.
-/

namespace Elementwise.Store

variable
    {α β : Type}
    [Arithmetic α]
    {make : Make}
    {others : Others α}
    {store before middle after : Store α}
    {buffer : BufferId}

/-! ## Leased and idle buffers on the accelerator -/

/-- The elements of the buffers on the accelerator that nobody leases. -/
def idleExtent (store : Store α) : Nat :=
  ∑ buffer ∈ store.resident with ¬ 0 < store.leasesOf buffer, store.lengthOf buffer

/-- The elements of the live blocks with some handles. -/
def blockExtent (store : Store α) (handles : Finset Nat) : Nat :=
  ∑ handle ∈ handles, (store.accelerator.pool.blocks.get? handle).elim 0 Array.size

omit [Arithmetic α] in
theorem leasesOf_eq
    {found : Buffer α}
    (present : store.buffers.get? buffer = some found) :
    store.leasesOf buffer = found.leases := by
  rw [leasesOf, claim?, present]
  rfl

section

variable
    {foreign : Finset Nat}
    (exact : ∀ handle, handle ∈ foreign ↔ ∃ values, (handle, some values) ∈ others)

include exact

omit [Arithmetic α] in
/-- What is in use is leased, idle, or held by others. -/
theorem Accounted.used_eq_extents (accounted : store.Accounted make others) :
    store.accelerator.pool.used =
      store.pinnedExtent + store.idleExtent + store.blockExtent foreign := by
  rw [accounted.used_eq exact, accounted.usage_eq_resident, pinnedExtent, idleExtent,
    Finset.sum_filter_add_sum_filter_not]
  rfl

omit [Arithmetic α] in
/-- Others hold as much as before. -/
theorem Accounted.blockExtent_eq
    (accounted : before.Accounted make others)
    (accountedAfter : after.Accounted make others) :
    after.blockExtent foreign = before.blockExtent foreign := by
  refine Finset.sum_congr rfl fun handle member => ?_
  obtain ⟨values, held⟩ := (exact handle).1 member
  rw [(accounted.held handle _ held).1, (accountedAfter.held handle _ held).1]

end

/-! ## Evictions that free enough -/

/--
Buffers that nobody leases are moved to the host with their values, and set as many
elements free as they have together.  Every other buffer stays where it is.
-/
structure Vacates (before after : Store α) (freed : Nat) : Prop where
  frame : Frame ∅ ∅ before after
  leaves : after.resident ⊆ before.resident
  idle : ∀ buffer ∈ before.resident \ after.resident, before.leasesOf buffer = 0
  moved : ∀ buffer ∈ before.resident \ after.resident, ∃ values,
    before.reading? buffer = some values ∧ after.contents? buffer = some (.host values)
  stays : ∀ buffer ∉ before.resident \ after.resident,
    after.contents? buffer = before.contents? buffer
  freed : freed = ∑ buffer ∈ before.resident \ after.resident, before.lengthOf buffer

/-- The buffers that were moved were in use before, and are not any more. -/
theorem Vacates.used_add_freed
    {freed : Nat}
    {foreign : Finset Nat}
    (vacates : Vacates before after freed)
    (exact : ∀ handle, handle ∈ foreign ↔ ∃ values, (handle, some values) ∈ others)
    (accounted : before.Accounted make others)
    (accountedAfter : after.Accounted make others) :
    after.accelerator.pool.used + freed = before.accelerator.pool.used := by
  have lengths : ∑ buffer ∈ after.resident, after.lengthOf buffer =
      ∑ buffer ∈ after.resident, before.lengthOf buffer :=
    Finset.sum_congr rfl fun buffer _ => lengthOf_frame vacates.frame (Set.notMem_empty _)
  have parts := Finset.sum_sdiff (f := before.lengthOf) vacates.leaves
  have foreignBefore := accounted.used_eq exact
  have foreignAfter := accountedAfter.used_eq exact
  have same := accounted.blockExtent_eq exact accountedAfter
  rw [accounted.usage_eq_resident] at foreignBefore
  rw [accountedAfter.usage_eq_resident, lengths] at foreignAfter
  have freed := vacates.freed
  unfold blockExtent at same
  omega

omit [Arithmetic α] in
theorem downloads_of_steady
    (steady : make.Steady)
    (accounted : store.Accounted make others)
    (later : Nat) :
    store.Downloads later :=
  accounted.faults_eq_none steady .download _

omit [Arithmetic α] in
/-- Where no download fails, all buffers of a queue are gained. -/
theorem gains_of_steady
    (steady : make.Steady)
    (accounted : store.Accounted make others)
    (later : Nat)
    (buffers : List BufferId) :
    store.gains later buffers = store.extent buffers := by
  induction buffers generalizing later with
  | nil => rfl
  | cons buffer buffers step =>
    rw [gains, if_pos (downloads_of_steady steady accounted later), step]
    rfl

omit [Arithmetic α] in
/-- The queue of the own device are the buffers on the accelerator that nobody leases. -/
theorem Queue.mem_iff
    {queue : List BufferId}
    (accounted : store.Accounted make others)
    (isQueue : store.Queue (some store.accelerator.pool.id) queue) :
    buffer ∈ queue ↔ buffer ∈ store.resident ∧ store.leasesOf buffer = 0 := by
  rw [isQueue.candidates, accounted.mem_resident_iff_onAccelerator]
  constructor
  · rintro ⟨found, block, present, idle, contents, -⟩
    refine ⟨⟨block, by rw [contents?, present, Option.map_some, contents]⟩, ?_⟩
    rw [leasesOf_eq present, idle]
  · rintro ⟨⟨block, held⟩, idle⟩
    obtain ⟨found, present, contents⟩ := Option.map_eq_some_iff.1 held
    have claimed : store.claim? buffer = some found.claim := by rw [claim?, present]; rfl
    obtain ⟨-, device, -⟩ := accounted.valid.fits buffer _ _ claimed held
    rw [leasesOf_eq present] at idle
    refine ⟨found, block, present, idle, contents, ?_⟩
    rintro _ ⟨⟩
    exact device

/-- Evictions that passed buffers of the queue have moved just these. -/
theorem Passes.vacates
    {passed rest : List BufferId}
    (passes : Passes passed before after)
    (steady : make.Steady)
    (accounted : before.Accounted make others)
    (accountedAfter : after.Accounted make others)
    (isQueue : before.Queue (some before.accelerator.pool.id) (passed ++ rest)) :
    before.resident \ after.resident = passed.toFinset ∧
      Vacates before after (before.gains 0 passed) := by
  have queued : ∀ buffer ∈ passed, buffer ∈ before.resident ∧ before.leasesOf buffer = 0 :=
    fun buffer member => (isQueue.mem_iff accounted).1 (List.mem_append_left _ member)
  have moved : ∀ buffer ∈ passed, ∃ values, before.reading? buffer = some values ∧
      after.contents? buffer = some (.host values) := by
    intro buffer member
    obtain ⟨index, found⟩ := List.mem_iff_getElem?.1 member
    exact passes.moved index buffer found (downloads_of_steady steady accounted index)
  have stays : ∀ buffer ∉ passed, after.contents? buffer = before.contents? buffer :=
    fun buffer other => passes.stays buffer fun index found =>
      absurd (List.mem_of_getElem? found) other
  have resident : ∀ buffer,
      buffer ∈ after.resident ↔ buffer ∈ before.resident ∧ buffer ∉ passed := by
    intro buffer
    rw [accountedAfter.mem_resident_iff_onAccelerator, accounted.mem_resident_iff_onAccelerator]
    by_cases member : buffer ∈ passed
    · obtain ⟨values, -, onHost⟩ := moved buffer member
      refine ⟨fun there => ?_, fun both => absurd member both.2⟩
      obtain ⟨block, held⟩ := there
      rw [onHost] at held
      cases held
    · unfold OnAccelerator
      rw [stays buffer member]
      exact ⟨fun there => ⟨there, member⟩, fun both => both.1⟩
  have gone : before.resident \ after.resident = passed.toFinset := by
    ext buffer
    rw [Finset.mem_sdiff, resident, List.mem_toFinset]
    constructor
    · rintro ⟨there, left⟩
      by_contra other
      exact left ⟨there, other⟩
    · exact fun member => ⟨(queued buffer member).1, fun both => both.2 member⟩
  refine ⟨gone, passes.frame, fun buffer member => ((resident buffer).1 member).1, ?_, ?_, ?_, ?_⟩
  · intro buffer member
    rw [gone, List.mem_toFinset] at member
    exact (queued buffer member).2
  · intro buffer member
    rw [gone, List.mem_toFinset] at member
    exact moved buffer member
  · intro buffer other
    rw [gone, List.mem_toFinset] at other
    exact stays buffer other
  · have distinct : passed.Nodup := (List.nodup_append.1 isQueue.nodup).1
    rw [gains_of_steady steady accounted, gone, extent, List.sum_toFinset _ distinct]

/-! ## Calls of the accelerator -/

/-- How often a block was asked for. -/
def allocations (store : Store α) : Nat :=
  store.accelerator.calls.get .allocate

theorem allocations_replace (contents : Contents α) :
    (store.replace buffer contents).allocations = store.allocations := by
  unfold replace
  split
  · rfl
  next found _ =>
    unfold Contents.discardOn
    cases found.contents <;> rfl

/-- Moves to the host ask for no block. -/
theorem retreating_allocations (count : Nat) :
    Retreating (fun store : Store α => store.allocations = count) where
  download block length := by
    intro store counted
    unfold perform
    rw [ends_bind_iff]
    unfold Ends attempt Accelerator.download Accelerator.call
    cases store.accelerator.faults .download (store.accelerator.calls.get .download) with
    | some reason => exact counted
    | none =>
      dsimp only
      cases store.accelerator.pool.download block length <;> exact counted
  replace store buffer contents counted := (allocations_replace contents).trans counted

/-- A block is granted just if it fits what is free, and is counted as asked for. -/
theorem ends_attempt_allocate_exact
    {failed : Error → Store α → Prop}
    (steady : make.Steady)
    (accounted : before.Accounted make others)
    (length : Nat) :
    Ends (attempt (Accelerator.allocate length)) before
      (fun outcome after => after.allocations = before.allocations + 1 ∧
        ((length ≤ before.accelerator.pool.available ∧ ∃ block, outcome = .ok block) ∨
          before.accelerator.pool.available < length ∧
          (∃ available, outcome = .error (.outOfMemory length available)) ∧
          after = before.called (before.accelerator.calls.bump .allocate) before.accelerator.pool))
      failed := by
  unfold Ends Store.attempt Accelerator.allocate Accelerator.call Pool.allocate
  by_cases short : before.accelerator.pool.available < length
  · simp only [accounted.faults_eq_none steady, short, if_true]
    exact ⟨rfl, .inr ⟨trivial, ⟨_, rfl⟩, rfl⟩⟩
  · simp only [accounted.faults_eq_none steady, short, if_false]
    exact ⟨rfl, .inl ⟨Nat.le_of_not_lt short, _, rfl⟩⟩

/-! ## Allocation with one retry -/

/-- A block that fits what is free is asked for once, and any other twice. -/
def attempts (store : Store α) (length : Nat) : Nat :=
  if length ≤ store.accelerator.pool.available then 1 else 2

/--
A block was refused: it does not fit beside the leased buffers and the blocks of others,
it was asked for twice, and all buffers that nobody leases were evicted in between.
-/
structure Refuses
    (capacity load length : Nat)
    (reason : Error)
    (before after : Store α) : Prop where
  exceeds : capacity < length + load
  allocations : after.allocations = before.allocations + before.attempts length
  freed : ∃ freed, reason = .resourceExhausted length freed ∧ Vacates before after freed
  leased : ∀ buffer ∈ after.resident, 0 < before.leasesOf buffer

/-- A block was granted: it fits beside the leased buffers and the blocks of others. -/
structure Grants (capacity load length : Nat) (before after : Store α) : Prop where
  fits : length + load ≤ capacity
  allocations : after.allocations = before.allocations + before.attempts length

/-- What cannot be evicted: the leased buffers on the accelerator and the blocks of others. -/
def load (store : Store α) (foreign : Finset Nat) : Nat :=
  store.pinnedExtent + store.blockExtent foreign

/-! ### Stores that differ in their books alone -/

section

variable
    {freed capacity length : Nat}
    {reason : Error}
    {foreign : Finset Nat}

omit [Arithmetic α] in
theorem Alike.resident
    (alike : Alike before after)
    (accounted : before.Accounted make others)
    (accountedAfter : after.Accounted make others) :
    after.resident = before.resident := by
  ext buffer
  rw [accountedAfter.mem_resident_iff_onAccelerator, accounted.mem_resident_iff_onAccelerator,
    OnAccelerator, OnAccelerator, alike.contents?]

omit [Arithmetic α] in
theorem Alike.leasesOf (alike : Alike before after) : after.leasesOf = before.leasesOf := by
  funext buffer
  rw [Store.leasesOf, alike.claim?, Store.leasesOf]

omit [Arithmetic α] in
theorem Alike.lengthOf (alike : Alike before after) : after.lengthOf = before.lengthOf := by
  funext buffer
  rw [Store.lengthOf, alike.claim?, Store.lengthOf]

variable
    (alike : Alike before middle)
    (accounted : before.Accounted make others)
    (accountedMiddle : middle.Accounted make others)

include alike accounted accountedMiddle

theorem Vacates.of_alike (vacates : Vacates middle after freed) : Vacates before after freed := by
  have resident := alike.resident accounted accountedMiddle
  obtain ⟨frame, leaves, idle, moved, stays, freed⟩ := vacates
  rw [resident, alike.leasesOf] at idle
  rw [resident, alike.reading?] at moved
  rw [resident, alike.contents?] at stays
  rw [resident, alike.lengthOf] at freed
  exact ⟨(alike.frame accounted.valid).trans_empty frame, resident ▸ leaves, idle, moved, stays,
    freed⟩

omit [Arithmetic α] in
theorem Alike.load_eq : middle.load foreign = before.load foreign := by
  rw [load, pinnedExtent, blockExtent, alike.resident accounted accountedMiddle, alike.leasesOf,
    alike.lengthOf, alike.pool]
  rfl

variable (calls : middle.allocations = before.allocations)

include calls

omit [Arithmetic α] accounted accountedMiddle in
theorem Alike.counts_eq :
    middle.allocations + middle.attempts length =
      before.allocations + before.attempts length := by
  rw [calls, attempts, alike.pool]
  rfl

omit [Arithmetic α] in
theorem Grants.of_alike
    (grants : Grants capacity (middle.load foreign) length middle after) :
    Grants capacity (before.load foreign) length before after where
  fits := alike.load_eq accounted accountedMiddle ▸ grants.fits
  allocations := grants.allocations.trans (alike.counts_eq calls)

theorem Refuses.of_alike
    (refuses : Refuses capacity (middle.load foreign) length reason middle after) :
    Refuses capacity (before.load foreign) length reason before after where
  exceeds := alike.load_eq accounted accountedMiddle ▸ refuses.exceeds
  allocations := refuses.allocations.trans (alike.counts_eq calls)
  freed := refuses.freed.imp fun _ both =>
    ⟨both.1, both.2.of_alike alike accounted accountedMiddle⟩
  leased := alike.leasesOf ▸ refuses.leased

end

/-- Evictions after which the books change. -/
theorem Vacates.alike
    {freed : Nat}
    (vacates : Vacates before middle freed)
    (alike : Alike middle after)
    (accounted : middle.Accounted make others)
    (accountedAfter : after.Accounted make others) :
    Vacates before after freed := by
  have resident := alike.resident accounted accountedAfter
  obtain ⟨frame, leaves, idle, moved, stays, freed⟩ := vacates
  rw [← resident] at leaves idle moved stays freed
  rw [← alike.contents?] at moved stays
  exact ⟨frame.trans_empty (alike.frame frame.valid), leaves, idle, moved, stays, freed⟩

omit [Arithmetic α] in
/-- A live buffer is found as it is. -/
theorem ends_find_of_present
    {found : Buffer α}
    {done : Buffer α → Store α → Prop}
    {failed : Error → Store α → Prop}
    (present : before.buffers.get? buffer = some found)
    (holds : done found before) :
    Ends (find buffer) before done failed := by
  unfold find
  rw [ends_bind_iff, ends_get_iff, present]
  exact holds

section

variable
    {foreign : Finset Nat}
    (steady : make.Steady)
    (exact : ∀ handle, handle ∈ foreign ↔ ∃ values, (handle, some values) ∈ others)
    (accounted : before.Accounted make others)

include steady accounted

/-- Evictions set enough elements free, or leave only leased buffers on the accelerator. -/
theorem ends_offload_exact
    (stamped : before.Stamped)
    (target : Nat) :
    Ends (offload target (some before.accelerator.pool.id)) before
      (fun freed after => after.Accounted make others ∧
        after.allocations = before.allocations ∧ Vacates before after freed ∧
        (target ≤ freed ∨ ∀ buffer ∈ after.resident, 0 < before.leasesOf buffer))
      fun _ _ => False := by
  refine ((ends_offload_scheduled accounted stamped target _).and
    ((accounted_offload before accounted).and
      ((retreating_allocations before.allocations).offload target _ before rfl))).mono ?_
        fun _ _ never => never.1
  rintro freed after ⟨⟨passed, rest, isQueue, rfl, stops, passes⟩, accountedAfter, counted⟩
  obtain ⟨gone, vacates⟩ := passes.vacates steady accounted accountedAfter isQueue
  refine ⟨accountedAfter, counted, vacates, ?_⟩
  rcases stops.reached with rfl | ⟨-, enough⟩
  · refine .inr fun buffer there => Nat.pos_of_ne_zero fun idle => ?_
    have queued := (isQueue.mem_iff accounted).2 ⟨vacates.leaves there, idle⟩
    rw [List.append_nil, ← List.mem_toFinset, ← gone] at queued
    exact (Finset.mem_sdiff.1 queued).2 there
  · rw [Nat.zero_add] at enough
    exact .inl enough

include exact

/-- A block is granted just if it fits beside what cannot be evicted. -/
theorem ends_allocateBlock_exact
    (stamped : before.Stamped)
    (length : Nat) :
    Ends (allocateBlock length) before
      (fun _ after => Grants make.capacity (before.load foreign) length before after)
      (fun reason after =>
        Refuses make.capacity (before.load foreign) length reason before after) := by
  have capacity : before.accelerator.pool.capacity = make.capacity :=
    congrArg Make.capacity accounted.made
  have fits : before.accelerator.pool.used ≤ make.capacity := capacity ▸ accounted.counted.fits
  have used := accounted.used_eq_extents exact
  have available :
      before.accelerator.pool.available = make.capacity - before.accelerator.pool.used := by
    rw [Pool.available, capacity]
  unfold allocateBlock
  rw [ends_bind_iff]
  refine (ends_attempt_allocate_exact steady accounted length).mono ?_ fun _ _ never => never
  rintro outcome middle ⟨counted, ⟨enough, block, rfl⟩ | ⟨short, ⟨_, rfl⟩, rfl⟩⟩
  · refine ⟨?_, ?_⟩
    · unfold load
      omega
    · rw [counted, attempts, if_pos enough]
  have twice : before.attempts length = 2 := if_neg (Nat.not_le_of_lt short)
  have refused := accounted.refused (before.accelerator.calls.bump .allocate)
  dsimp only
  rw [ends_bind_iff, ends_get_iff, ends_bind_iff]
  refine (ends_offload_exact steady refused (stamped.of_stamps rfl fun _ _ found => found)
    length).mono ?_ fun _ _ never => never.elim
  rintro freed evicted ⟨accountedEvicted, countedEvicted, vacates, ends⟩
  have vacates := vacates.of_alike (alike_called before _) accounted refused
  have usedEvicted := accountedEvicted.used_eq_extents exact
  have freedUsed := vacates.used_add_freed exact accounted accountedEvicted
  rw [pinnedExtent_still accounted accountedEvicted vacates.frame,
    accounted.blockExtent_eq exact accountedEvicted] at usedEvicted
  have capacityEvicted : evicted.accelerator.pool.capacity = make.capacity :=
    congrArg Make.capacity accountedEvicted.made
  rw [ends_bind_iff]
  refine (ends_attempt_allocate_exact steady accountedEvicted length).mono ?_
    fun _ _ never => never
  have total : ∀ {final : Store α}, final.allocations = evicted.allocations + 1 →
      final.allocations = before.allocations + before.attempts length := by
    intro final countedFinal
    rw [countedFinal, countedEvicted, counted, twice]
  rintro outcome final ⟨countedFinal, ⟨enough, block, rfl⟩ | ⟨short, ⟨_, rfl⟩, rfl⟩⟩
  · refine ⟨?_, total countedFinal⟩
    unfold load
    rw [Pool.available, capacityEvicted] at enough
    omega
  · rw [Pool.available, capacityEvicted] at short
    have leased : ∀ buffer ∈ evicted.resident, 0 < before.leasesOf buffer := by
      refine ends.resolve_left fun enough => ?_
      omega
    have noneIdle : evicted.idleExtent = 0 := by
      refine Finset.sum_eq_zero fun buffer member => ?_
      obtain ⟨there, idle⟩ := Finset.mem_filter.1 member
      rw [leasesOf_frame vacates.frame (Set.notMem_empty _)] at idle
      exact absurd (leased buffer there) idle
    refine ⟨?_, total countedFinal, ⟨freed, rfl, ?_⟩, leased⟩
    · unfold load
      omega
    · exact vacates.alike (alike_called _ _) accountedEvicted (accountedEvicted.refused _)

/-! ## Moves to the accelerator -/

/-- A buffer is moved to the accelerator just if it fits beside what cannot be evicted. -/
theorem ends_moveToAccelerator_exact
    {found : Buffer α}
    (stamped : before.Stamped)
    (present : before.buffers.get? buffer = some found)
    (off : found.tier ≠ .accelerator) :
    Ends (moveToAccelerator buffer) before
      (fun _ after => Grants make.capacity (before.load foreign) found.length before after)
      (fun reason after =>
        Refuses make.capacity (before.load foreign) found.length reason before after) := by
  have granted := ends_allocateBlock_exact steady exact accounted stamped found.length
  have placed : ∀ {middle : Store α} (block : Block),
      Grants make.capacity (before.load foreign) found.length before middle →
      Grants make.capacity (before.load foreign) found.length before
        (middle.replace buffer (.device block)) :=
    fun block grants => ⟨grants.fits, (allocations_replace _).trans grants.allocations⟩
  unfold moveToAccelerator
  rw [ends_bind_iff]
  refine ends_find_of_present present ?_
  cases contents : found.contents with
  | device block => exact absurd (congrArg Contents.tier contents) off
  | empty =>
    dsimp only
    rw [ends_bind_iff]
    exact granted.mono (fun block _ grants => placed block grants) fun _ _ refuses => refuses
  | host values =>
    have claimed : before.claim? buffer = some found.claim := by rw [claim?, present]; rfl
    have held : before.contents? buffer = some (.host values) := by
      rw [contents?, present, Option.map_some, contents]
    have size : values.size = found.length := accounted.valid.fits buffer _ _ claimed held
    dsimp only
    rw [ends_bind_iff]
    have books := ends_allocateBlock_accounted accounted found.length
    refine ((ends_allocateBlock accounted.valid found.length).and (books.and granted)).mono ?_
      fun _ _ refuses => refuses.2.2
    rintro block middle ⟨⟨-, -, grant⟩, pending, grants⟩
    obtain ⟨pool, uploaded⟩ := Pool.upload_isOk grant.zeros
      (show (zeros α found.length).size = values.size by rw [size_zeros, size])
    have acted : ((((), ·) : Pool α → Unit × Pool α) <$>
        middle.accelerator.pool.upload block values) = .ok ((), pool) :=
      map_eq_ok_iff.2 ⟨pool, uploaded, rfl⟩
    rw [ends_bind_iff, ends_unlessDone_iff]
    refine (ends_scheduled acted).mono ?_ ?_
    · rintro _ _ ⟨-, rfl⟩
      refine placed block ⟨grants.fits, ?_⟩
      rw [← grants.allocations]
      exact (CallCounts.get_bump _ .upload .allocate).trans (if_neg (by decide))
    · rintro _ _ ⟨fault, -⟩
      exact absurd (pending.accounted.faults_eq_none steady _ _) fault

/-! ## Accesses on the accelerator -/

/-- What holds of a move after an access holds of the move. -/
theorem ends_touched_exact
    {found : Buffer α}
    (stamped : before.Stamped)
    (present : before.buffers.get? buffer = some found)
    (off : found.tier ≠ .accelerator) :
    Ends (moveToAccelerator buffer) (before.touch buffer)
      (fun _ after => Grants make.capacity (before.load foreign) found.length before after)
      (fun reason after =>
        Refuses make.capacity (before.load foreign) found.length reason before after) := by
  have alike := alike_touch before buffer
  have accountedTouched : (before.touch buffer).Accounted make others := accounted.touch
  have touched : (before.touch buffer).buffers.get? buffer =
      some { found with stamp := before.clock + 1 } := by
    rw [touch, Table.get?_modify, if_pos rfl, present]
    rfl
  exact (ends_moveToAccelerator_exact steady exact accountedTouched stamped.touch touched off).mono
    (fun _ _ grants => grants.of_alike alike accounted accountedTouched rfl)
    fun _ _ refuses => refuses.of_alike alike accounted accountedTouched rfl

section

variable
    {found : Buffer α}
    (stamped : before.Stamped)
    (present : before.buffers.get? buffer = some found)
    (unleased : found.leases = 0)
    (off : found.tier ≠ .accelerator)

include stamped present unleased off

/-- A buffer is brought to the accelerator just if it fits beside what cannot be evicted. -/
theorem ends_ensure_exact :
    Ends (ensure buffer .accelerator) before
      (fun _ after => Grants make.capacity (before.load foreign) found.length before after)
      (fun reason after =>
        Refuses make.capacity (before.load foreign) found.length reason before after) := by
  unfold ensure claim
  rw [ends_bind_iff, ends_bind_iff]
  refine ends_find_of_present present ?_
  rw [if_neg (Nat.not_lt_of_le (Nat.le_of_eq unleased))]
  exact ends_touched_exact steady exact accounted stamped present off

/-- A buffer is leased on the accelerator just if it fits beside what cannot be evicted. -/
theorem ends_lease_exact :
    Ends (lease buffer .accelerator) before
      (fun _ after => Grants make.capacity (before.load foreign) found.length before after)
      (fun reason after =>
        Refuses make.capacity (before.load foreign) found.length reason before after) := by
  have touched : (before.touch buffer).buffers.get? buffer =
      some { found with stamp := before.clock + 1 } := by
    rw [touch, Table.get?_modify, if_pos rfl, present]
    rfl
  unfold lease
  rw [if_neg (by decide), ends_bind_iff, ends_modify_iff, ends_bind_iff]
  refine ends_find_of_present touched ?_
  rw [if_pos (show Buffer.tier { found with stamp := before.clock + 1 } ≠ _ from off)]
  rw [if_neg (Nat.not_lt_of_le (Nat.le_of_eq unleased))]
  dsimp only
  rw [ends_bind_iff]
  exact (ends_touched_exact steady exact accounted stamped present off).mono
    (fun _ _ grants => ⟨grants.fits, grants.allocations⟩) fun _ _ refuses => refuses

end

end

namespace Session

variable
    {session : Session α}
    {name : Nat}
    {found : Buffer α}
    {command : Command α}

/-! ## Requests for the accelerator -/

omit [Arithmetic α] in
/-- The leases on a live buffer are those of the user. -/
theorem Sound.leasesOf_pos_iff
    {claim : Claim}
    (sound : session.Sound make)
    (claimed : session.store.claim? buffer = some claim) :
    0 < session.store.leasesOf buffer ↔ some buffer ∈ session.leases := by
  constructor
  · intro leased
    by_contra unleased
    rw [leasesOf, claimed, Option.elim_some, sound.leases_eq_zero unleased claimed] at leased
    exact Nat.lt_irrefl _ leased
  · intro leased
    obtain ⟨other, present, counted⟩ := sound.exists_leases leased
    rw [leasesOf_eq present]
    exact counted

/-- The elements of the leased buffers on the accelerator. -/
def leasedExtent (session : Session α) : Nat :=
  ∑ buffer ∈ session.store.resident with some buffer ∈ session.leases,
    session.store.lengthOf buffer

omit [Arithmetic α] in
/-- Leased buffers and reserved blocks are what cannot be evicted. -/
theorem Sound.load_eq (sound : session.Sound make) :
    session.store.load (session.foreign.image Block.handle) =
      session.leasedExtent + ∑ block ∈ session.foreign, block.length := by
  rw [load, blockExtent, sound.sum_foreign, pinnedExtent, leasedExtent]
  refine congrArg (· + _) (Finset.sum_congr (Finset.filter_congr fun buffer member => ?_)
    fun _ _ => rfl)
  obtain ⟨found, present, -⟩ := mem_resident_iff.1 member
  have claimed : session.store.claim? buffer = some found.claim := by rw [claim?, present]; rfl
  exact sound.leasesOf_pos_iff claimed

omit [Arithmetic α] in
theorem Sound.load_le (sound : session.Sound make) :
    session.leasedExtent + ∑ block ∈ session.foreign, block.length ≤ make.capacity := by
  have used := sound.accounted.used_eq_extents fun _ => mem_handles_foreign_iff
  have fits := sound.accounted.counted.fits
  rw [show session.store.accelerator.pool.capacity = make.capacity from
    congrArg Make.capacity sound.accounted.made] at fits
  rw [← sound.load_eq, load]
  omega

/-- A request to have a buffer on the accelerator does what the store does with it. -/
theorem ends_perform_onAccelerator
    {done : Store α → Prop}
    {failed : Error → Store α → Prop}
    (stands : session.buffers[name]? = some (some buffer))
    (asks : command = .ensure name .accelerator ∨ command = .lease name .accelerator)
    (ensures : Ends (Store.ensure buffer .accelerator) session.store (fun _ after => done after)
      failed)
    (leases : Ends (Store.lease buffer .accelerator) session.store (fun _ after => done after)
      failed)
    (holds : ∀ after, done after → done (after.hold buffer)) :
    Ends (perform command) session (fun _ after => done after.store)
      fun reason after => failed reason after.store := by
  obtain rfl | rfl := asks
  · exact ends_named_onStore stands ensures
  · show Ends (leaseNext name .accelerator >>= _) session _ _
    unfold leaseNext named
    rw [ends_bind_iff, ends_bind_iff, reserveLease, ends_modifyGet_iff, ends_bind_iff,
      ends_bind_iff, ends_get_iff]
    simp only [stands]
    rw [ends_pure_iff, ends_bind_iff, ends_onStore_iff]
    refine leases.mono (fun _ after ended => ?_) fun _ _ ended => ended
    rw [ends_bind_iff, ends_modify_iff, ends_pure_iff]
    exact holds after ended

variable
    {capacity : Nat}
    {device : DeviceId}
    {unsupported : List OpCode}
    {commands : List (Command α)}

/--
In every session that a run of requests leads to on an accelerator that never fails, a
buffer that is elsewhere and not leased is brought to the accelerator, or leased there, just
if it fits beside the leased buffers and the reserved blocks.  A block is asked for once if
the buffer fits what is free, and exactly twice otherwise.

If the buffer does not fit, the answer says how many elements were evicted, all buffers that
are not leased have left the accelerator with their values, and the buffer is as before.
-/
theorem granted_iff_fits
    (reached : (start capacity device unsupported fun _ _ => none).run commands = session)
    (stands : session.buffer? name = some (buffer, found))
    (unleased : some buffer ∉ session.leases)
    (elsewhere : found.location ≠ .accelerator)
    (asks : command = .ensure name .accelerator ∨ command = .lease name .accelerator) :
    ((∃ answer, (session.step command).1 = .ok answer) ↔
      found.length ≤ capacity - session.leasedExtent - ∑ block ∈ session.foreign, block.length) ∧
    (session.step command).2.store.allocations = session.store.allocations +
      (if found.length ≤ session.store.accelerator.pool.available then 1 else 2) ∧
    ∀ reason, (session.step command).1 = .error reason →
      reason = .resourceExhausted found.length
        (∑ other ∈ session.store.resident \ (session.step command).2.store.resident,
          session.store.lengthOf other) ∧
      (∀ other ∈ session.store.resident, some other ∉ session.leases → ∃ values,
        session.store.reading? other = some values ∧
          (session.step command).2.store.contents? other = some (.host values) ∧
          (session.step command).2.store.location? other = some .host) ∧
      (session.step command).2.store.contents? buffer = session.store.contents? buffer ∧
      (session.step command).2.store.location? buffer = session.store.location? buffer := by
  have sound := sound_of_run reached
  have steady : (⟨device, capacity, unsupported, fun _ _ => none⟩ : Make).Steady :=
    fun _ _ => rfl
  obtain ⟨named, present⟩ := buffer?_eq_some_iff.1 stands
  have claimed : session.store.claim? buffer = some found.claim := by rw [claim?, present]; rfl
  have none : found.leases = 0 := sound.leases_eq_zero unleased claimed
  have tier : found.tier ≠ .accelerator := by
    rwa [← sound.accounted.location_eq_tier present]
  have ends := ends_perform_onAccelerator named asks
    (ends_ensure_exact steady (fun _ => mem_handles_foreign_iff) sound.accounted
      (stamped_of_run reached) present none tier)
    (ends_lease_exact steady (fun _ => mem_handles_foreign_iff) sound.accounted
      (stamped_of_run reached) present none tier)
    fun _ grants => ⟨grants.fits, grants.allocations⟩
  rw [sound.load_eq] at ends
  have after : (session.step command).2.store.Accounted _ (session.step command).2.others :=
    (sound.step (show session.step command = (_, _) from rfl)).1.sound.accounted
  have room := sound.load_le
  cases outcome : (session.step command).1 with
  | ok answer =>
    obtain ⟨fits, counted⟩ := step_of_ok ends outcome
    dsimp only at fits room
    exact ⟨iff_of_true ⟨answer, rfl⟩ (by omega), counted, fun _ never => by cases never⟩
  | error reason =>
    obtain ⟨exceeds, counted, ⟨freed, rfl, vacates⟩, leased⟩ := step_of_error ends outcome
    dsimp only at exceeds room
    refine ⟨iff_of_false (by rintro ⟨_, never⟩; cases never) (by omega), counted, ?_⟩
    rintro _ ⟨⟩
    refine ⟨by rw [vacates.freed], fun other resident idle => ?_, ?_⟩
    · obtain ⟨holder, live, -⟩ := mem_resident_iff.1 resident
      have owned : session.store.claim? other = some holder.claim := by rw [claim?, live]; rfl
      have left : other ∉ (session.step command).2.store.resident := fun still =>
        idle ((sound.leasesOf_pos_iff owned).1 (leased other still))
      obtain ⟨values, reads, onHost⟩ := vacates.moved other (Finset.mem_sdiff.2 ⟨resident, left⟩)
      exact ⟨values, reads, onHost, after.located other _ onHost⟩
    · have held : session.store.contents? buffer = some found.contents := by
        rw [contents?, present]
        rfl
      have apart : buffer ∉ session.store.resident := by
        rintro resident
        obtain ⟨same, live, there⟩ := mem_resident_iff.1 resident
        rw [present] at live
        cases live
        exact elsewhere there
      have stays := vacates.stays buffer fun left => apart (Finset.mem_sdiff.1 left).1
      refine ⟨stays, ?_⟩
      rw [after.located buffer found.contents (stays.trans held),
        sound.accounted.located buffer found.contents held]

/--
A reserved block, a leased buffer and one that nobody leases leave two elements free, and
two buffers are on the host or empty.
-/
def squeezed : Session Int :=
  (start 6 ⟨0⟩ [] fun _ _ => none).run
    [.reserve 1, .allocateFrom #[1, 2], .lease 0 .accelerator, .allocateFrom #[3],
      .ensure 1 .accelerator, .allocateFrom #[4, 5, 6], .allocate 4]

/-- Three elements fit beside the leased buffer and the reserved block, and four do not. -/
theorem granted_iff_fits_squeezed :
    (∃ answer, (squeezed.step (.lease 2 .accelerator)).1 = .ok answer) ∧
      (squeezed.step (.lease 2 .accelerator)).2.store.allocations =
        squeezed.store.allocations + 2 ∧
      (squeezed.step (.ensure 3 .accelerator)).1 = .error (.resourceExhausted 4 1) ∧
      (squeezed.step (.ensure 3 .accelerator)).2.store.contents? ⟨1⟩ = some (.host #[3]) := by
  obtain ⟨short, stands, elsewhere, three⟩ : ∃ found, squeezed.buffer? 2 = some (⟨2⟩, found) ∧
      found.location ≠ .accelerator ∧ found.length = 3 :=
    ⟨_, rfl, by decide +kernel, by decide +kernel⟩
  obtain ⟨long, standsToo, elsewhereToo, four⟩ : ∃ found,
      squeezed.buffer? 3 = some (⟨3⟩, found) ∧ found.location ≠ .accelerator ∧ found.length = 4 :=
    ⟨_, rfl, by decide +kernel, by decide +kernel⟩
  have fits := granted_iff_fits (rfl : _ = squeezed) stands (by decide +kernel) elsewhere (.inr rfl)
  have exceeds := granted_iff_fits (rfl : _ = squeezed) standsToo (by decide +kernel) elsewhereToo
    (.inl rfl)
  have free : squeezed.store.accelerator.pool.available = 2 := by decide +kernel
  have leased : squeezed.leasedExtent = 2 := by decide +kernel
  have reserved : ∑ block ∈ squeezed.foreign, block.length = 1 := by decide +kernel
  have reads : squeezed.store.reading? ⟨1⟩ = some #[3] := by decide +kernel
  have freed : ∑ other ∈ squeezed.store.resident \
      (squeezed.step (.ensure 3 .accelerator)).2.store.resident,
        squeezed.store.lengthOf other = 1 := by decide +kernel
  rw [leased, reserved, free, three] at fits
  rw [leased, reserved, freed, four] at exceeds
  refine ⟨fits.1.2 (by decide), fits.2.1, ?_⟩
  cases outcome : (squeezed.step (.ensure 3 .accelerator)).1 with
  | ok answer => exact absurd (exceeds.1.1 ⟨answer, outcome⟩) (by decide)
  | error reason =>
    obtain ⟨rfl, idle, -⟩ := exceeds.2.2 reason outcome
    obtain ⟨values, before, onHost, -⟩ := idle ⟨1⟩ (by decide +kernel) (by decide +kernel)
    rw [reads] at before
    cases before
    exact ⟨rfl, onHost⟩

end Session

end Elementwise.Store
