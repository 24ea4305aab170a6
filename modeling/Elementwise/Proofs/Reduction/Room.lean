import Elementwise.Proofs.Buffer.Room
import Elementwise.Proofs.Reduction.Tree

/-!
# How much room a reduction needs

A pass needs its source and its result on the accelerator at once.  No pass
has more results than the one before, so with room for the results of the
first pass twice, none of the passes is refused.

On an accelerator that never fails, nothing else can go wrong, as long as the
source has an element at every place and all sizes are machine sizes.
-/

namespace Elementwise

variable
    {α ω : Type}
    {make : Make}
    {quota : Store.Quota}

/-! ## Sources that have all elements -/

/-- A source that has an element at each index below a number, from any workspace of a kind. -/
def Source.Gives
    (source : Source α ω)
    (inputs : Array (Array α))
    (keeps : ω → Prop)
    (count : Nat) : Prop :=
  ∀ index, index < count → ∀ workspace, keeps workspace →
    ∃ value next, source index inputs workspace = .ok (value, next) ∧ keeps next

theorem gives_firstInput (values : Array α) :
    Source.Gives firstInput #[values] (fun _ => True) values.size := by
  intro index inside workspace _
  have present : elementAt values index = .ok values[index] :=
    elementAt_eq_ok_iff.2 (Array.getElem?_eq_getElem inside)
  exact ⟨values[index], workspace,
    bind_eq_ok_iff.2 ⟨values, rfl, bind_eq_ok_iff.2 ⟨_, present, rfl⟩⟩, trivial⟩

namespace AxisLayout

open Store

variable
    {layout : AxisLayout}
    {fanIn before along behind : Nat}
    {combine : α → α → α}
    {initial : ω}
    {source : Source α ω}
    {inputs : Array (Array α)}
    {keeps : ω → Prop}

/-! ## Machine sizes -/

/-- All places of a layout, and the ends of all runs along its axis, are machine sizes. -/
structure Addressable (layout : AxisLayout) : Prop where
  slices : layout.outer * layout.length < Size.limit
  count : layout.count < Size.limit
  runs : 2 * layout.length ≤ Size.limit

theorem addressable_flat
    {length : Nat}
    (sized : 2 * length ≤ Size.limit) :
    (flat length).Addressable := by
  have inside : length < Size.limit := by
    have positive : 0 < Size.limit := by decide
    omega
  refine ⟨?_, ?_, sized⟩
  · show 1 * length < Size.limit
    rwa [Nat.one_mul]
  · show 1 * length * 1 < Size.limit
    rwa [Nat.one_mul, Nat.mul_one]

theorem count_shortened_le (long : 2 ≤ fanIn) : (layout.shortened fanIn).count ≤ layout.count :=
  Nat.mul_le_mul_right _ (Nat.mul_le_mul_left _ (runs_le long _))

theorem Addressable.shortened
    (addressable : layout.Addressable)
    (long : 2 ≤ fanIn) :
    (layout.shortened fanIn).Addressable where
  slices := Nat.lt_of_le_of_lt (Nat.mul_le_mul_left _ (runs_le long _)) addressable.slices
  count := Nat.lt_of_le_of_lt (count_shortened_le long) addressable.count
  runs := Nat.le_trans (Nat.mul_le_mul_left _ (runs_le long _)) addressable.runs

theorem offset_isOk
    (addressable : layout.Addressable)
    (outside : before < layout.outer)
    (inside : along < layout.length)
    (last : behind < layout.inner) :
    layout.offset before along behind =
      .ok ((before * layout.length + along) * layout.inner + behind) := by
  have place : (before * layout.length + along) * layout.inner + behind < Size.limit :=
    Nat.lt_trans (place_lt outside inside last) addressable.count
  have entry : before * layout.length + along ≤
      (before * layout.length + along) * layout.inner :=
    Nat.le_mul_of_pos_right _ (Nat.zero_lt_of_lt last)
  refine bind_eq_ok_iff.2 ⟨_, Size.check_eq_ok_iff.2 ⟨by omega, rfl⟩, ?_⟩
  refine bind_eq_ok_iff.2 ⟨_, Size.check_eq_ok_iff.2 ⟨by omega, rfl⟩, ?_⟩
  refine bind_eq_ok_iff.2 ⟨_, Size.check_eq_ok_iff.2 ⟨by omega, rfl⟩, ?_⟩
  exact Size.check_eq_ok_iff.2 ⟨place, rfl⟩

/-- The results of a pass can be counted. -/
theorem sizeAlong_isOk
    (addressable : layout.Addressable)
    (long : 2 ≤ fanIn) :
    layout.sizeAlong (Size.runs layout.length fanIn) = .ok (layout.shortened fanIn).count :=
  bind_eq_ok_iff.2
    ⟨_, Size.check_eq_ok_iff.2 ⟨(addressable.shortened long).slices, rfl⟩,
      Size.check_eq_ok_iff.2 ⟨(addressable.shortened long).count, rfl⟩⟩

/-! ## The kernel of a pass -/

theorem foldEntries_isOk
    (combine : α → α → α)
    (addressable : layout.Addressable)
    (gives : source.Gives inputs keeps layout.count)
    (outside : before < layout.outer)
    (last : behind < layout.inner)
    {count : Nat}
    (inside : along + count ≤ layout.length)
    (folded : α)
    {workspace : ω}
    (kept : keeps workspace) :
    ∃ result next, layout.foldEntries combine source inputs before behind count along folded
      workspace = .ok (result, next) ∧ keeps next := by
  induction count generalizing along folded workspace with
  | zero => exact ⟨folded, workspace, rfl, kept⟩
  | succ count step =>
    have here : along < layout.length := by omega
    have later : along + 1 + count ≤ layout.length := by omega
    obtain ⟨value, middle, read, keptMiddle⟩ := gives _ (place_lt outside here last) workspace kept
    obtain ⟨result, next, rest, keptNext⟩ := step later (combine folded value) keptMiddle
    exact ⟨result, next,
      bind_eq_ok_iff.2 ⟨_, offset_isOk addressable outside here last,
        bind_eq_ok_iff.2 ⟨(value, middle), read, rest⟩⟩, keptNext⟩

/-- The end of a run is a machine size, even where it lies beyond the axis. -/
theorem end_lt_limit
    (addressable : layout.Addressable)
    (sized : fanIn < Size.limit)
    {run : Nat}
    (inside : run * fanIn < layout.length) :
    run * fanIn + fanIn < Size.limit := by
  have twice := addressable.runs
  cases run with
  | zero => rwa [Nat.zero_mul, Nat.zero_add]
  | succ run =>
    have whole : fanIn ≤ (run + 1) * fanIn := Nat.le_mul_of_pos_left _ (Nat.succ_pos run)
    omega

/-- Where the entries lie that are folded to one result of a pass. -/
theorem place_of_lt_count
    (positive : 0 < fanIn)
    {index : Nat}
    (inside : index < (layout.shortened fanIn).count) :
    index / layout.inner / Size.runs layout.length fanIn < layout.outer ∧
      index / layout.inner % Size.runs layout.length fanIn * fanIn < layout.length ∧
      index % layout.inner < layout.inner ∧
      index / layout.inner % Size.runs layout.length fanIn * fanIn + 1 +
        (min (index / layout.inner % Size.runs layout.length fanIn * fanIn + fanIn) layout.length -
          (index / layout.inner % Size.runs layout.length fanIn * fanIn + 1)) ≤ layout.length := by
  have inRuns : index < layout.outer * Size.runs layout.length fanIn * layout.inner := inside
  have innerPositive : 0 < layout.inner := by
    by_contra none
    rw [Nat.eq_zero_of_not_pos none, Nat.mul_zero] at inRuns
    exact Nat.not_lt_zero _ inRuns
  have slice : index / layout.inner < layout.outer * Size.runs layout.length fanIn :=
    (Nat.div_lt_iff_lt_mul innerPositive).2 inRuns
  have runsPositive : 0 < Size.runs layout.length fanIn := by
    by_contra none
    rw [Nat.eq_zero_of_not_pos none, Nat.mul_zero] at slice
    exact Nat.not_lt_zero _ slice
  have started := start_lt_of_lt_runs positive
    (Nat.mod_lt (index / layout.inner) runsPositive)
  exact ⟨(Nat.div_lt_iff_lt_mul runsPositive).2 slice, started, Nat.mod_lt _ innerPositive,
    by omega⟩

/-- Each result of a pass can be computed. -/
theorem passKernel_row_isOk
    (addressable : layout.Addressable)
    (gives : source.Gives inputs keeps layout.count)
    (positive : 0 < fanIn)
    (sized : fanIn < Size.limit)
    {index : Nat}
    (inside : index < (layout.shortened fanIn).count)
    {workspace : ω}
    (kept : keeps workspace) :
    ∃ row next, (layout.passKernel fanIn combine initial source).row index inputs workspace =
      .ok (row, next) ∧ keeps next := by
  obtain ⟨outside, started, last, fits⟩ := place_of_lt_count positive inside
  have ended := end_lt_limit addressable sized started
  obtain ⟨value, middle, read, keptMiddle⟩ :=
    gives _ (place_lt outside started last) workspace kept
  obtain ⟨result, next, folded, keptNext⟩ :=
    foldEntries_isOk combine addressable gives outside last fits value keptMiddle
  refine ⟨#[result], next, ?_, keptNext⟩
  refine bind_eq_ok_iff.2 ⟨_, Size.check_eq_ok_iff.2 ⟨by omega, rfl⟩, ?_⟩
  refine bind_eq_ok_iff.2 ⟨_, Size.check_eq_ok_iff.2 ⟨ended, rfl⟩, ?_⟩
  refine bind_eq_ok_iff.2 ⟨_, offset_isOk addressable outside started last, ?_⟩
  refine bind_eq_ok_iff.2 ⟨_, read, ?_⟩
  exact bind_eq_ok_iff.2 ⟨_, folded, rfl⟩

/-! ## Leases given back -/

variable
    [Arithmetic α]
    {blocks : List Block}

theorem within_allocateRuns :
    Preserves (Within make quota) (layout.allocateRuns fanIn : Store.Action α BufferId) :=
  .bind (preserves_check _) fun length => within_allocate length

theorem within_launchPass
    {output : Block} :
    Preserves (Within make quota)
      (layout.launchPass fanIn combine initial source blocks output) :=
  .bind (preserves_check _) fun _ => within_launch

theorem within_firstPass :
    Preserves (Within make quota) (layout.firstPass fanIn combine blocks initial source) :=
  .bind within_allocateRuns fun _ =>
    .bind
      (preserves_unlessDone
        (within_withLease fun _ => .bind preserves_blockOf fun _ => within_launchPass)
        fun _ within => within.drop)
      fun _ => .pure _

theorem within_nextPass
    {current : BufferId} :
    Preserves (Within make quota) (layout.nextPass fanIn combine current) :=
  .bind within_allocateRuns fun _ =>
    .bind
      (preserves_unlessDone
        (.bind
          (within_withLease fun _ => within_withLease fun _ =>
            .bind preserves_blockOf fun _ => .bind preserves_blockOf fun _ =>
              within_launchPass)
          fun _ => within_release)
        fun _ within => within.drop)
      fun _ => .pure _

theorem within_laterPasses
    (long : 2 ≤ fanIn)
    {current : BufferId} :
    Preserves (Within make quota) (layout.laterPasses fanIn long combine current) := by
  induction size : layout.length using Nat.strong_induction_on generalizing layout current with
  | _ length step =>
    unfold laterPasses
    split
    next many =>
      refine .bind (preserves_unlessDone within_nextPass fun _ within => within.drop) ?_
      intro next
      exact .bind (.modify fun _ within => within.drop) fun _ =>
        step _ (size ▸ Size.runs_lt many long) rfl
    next => exact .pure current

theorem within_treeReduce :
    Preserves (Within make quota) (layout.treeReduce fanIn combine blocks initial source) :=
  .bind within_firstPass fun _ => within_laterPasses _

/-! ## Passes that are not refused -/

/-- What a pass leaves is as long as its layout says. -/
theorem claim_of_made
    {base store : Store α}
    {current : BufferId}
    {lists : Nat → Nat → List α}
    (made : Made (layout.Holds lists) base store current) :
    store.claim? current = some (.fresh layout.count) := by
  obtain ⟨length, fresh⟩ := made.fresh
  obtain ⟨values, reads, holds⟩ := made.reads
  have size := size_of_reading made.frame.valid reads
  rw [lengthOf, fresh, holds.size] at size
  rw [fresh, show layout.count = length from size]

section

variable
    {others : Store.Others α}
    {store : Store α}
    {held : List (BufferId × Nat)}
    {sources : List BufferId}
    {output current : BufferId}
    {failed : Error → Store α → Prop}
    (steady : make.Steady)
    (addressable : layout.Addressable)
    (long : 2 ≤ fanIn)

include addressable long

omit [Arithmetic α] in
theorem ends_allocateRuns_of_addressable :
    Ends (layout.allocateRuns fanIn) store (fun _ _ => True) failed := by
  unfold allocateRuns
  rw [sizeAlong_isOk addressable long]
  trivial

variable (sized : fanIn < Size.limit)

include steady sized

/-- A pass between buffers on the accelerator. -/
theorem ends_launchPass_of_steady
    (keeps : ω → Prop)
    (accounted : store.Accounted make others)
    (kept : keeps initial)
    {target : Block}
    (length : store.lengthOf output = (layout.shortened fanIn).count)
    (read : List.Forall₂ (fun buffer block => store.contents? buffer = some (.device block))
      sources blocks)
    (written : store.contents? output = some (.device target))
    (gives : ∀ views,
      List.Forall₂ (fun buffer values => store.reading? buffer = some values) sources views →
      source.Gives views.toArray keeps layout.count) :
    Ends (layout.launchPass fanIn combine initial source blocks target) store
      (fun _ _ => True) failed := by
  unfold launchPass
  rw [sizeAlong_isOk addressable long]
  refine ends_launch_of_steady steady accounted read (.cons written .nil) ?_ ?_
  · intro buffer member
    rw [List.mem_singleton.1 member, length]
  · intro views viewed
    exact Kernel.rows_isOk keeps kept fun index inside workspace holds =>
      passKernel_row_isOk addressable (gives views viewed) (by omega) sized inside holds

variable (within : store.Within make (quotaOf held))

include within

/-- The first pass, with room for its results. -/
theorem ends_firstPass_of_room
    (kept : keeps initial)
    (pins : List.Forall₂ store.Pins sources blocks)
    (gives : ∀ views,
      List.Forall₂ (fun buffer values => store.reading? buffer = some values) sources views →
      source.Gives views.toArray keeps layout.count)
    (room : loadOf held + (layout.shortened fanIn).count ≤ make.capacity) :
    Ends (layout.firstPass fanIn combine blocks initial source) store (fun _ _ => True) failed := by
  unfold firstPass
  rw [ends_bind_iff]
  refine ((ends_allocateRuns within.accounted.valid).and ((within_allocateRuns store within).and
    (ends_allocateRuns_of_addressable addressable long))).mono ?_ fun _ _ never => never.2.2
  rintro output middle ⟨⟨made, fresh⟩, booked, -⟩
  have old : ∀ source ∈ sources, source ∉ ({output} : Set BufferId) := by
    rintro source member rfl
    obtain ⟨block, -, pinned⟩ := exists_of_forall₂ pins source member
    obtain ⟨claim, claimed, -⟩ := pinned.leased
    rw [made.absent] at claimed
    cases claimed
  have length : middle.lengthOf output = (layout.shortened fanIn).count := by
    rw [lengthOf, fresh]
    rfl
  rw [ends_bind_iff, ends_unlessDone_iff]
  refine (ends_withLease_of_room steady booked ⟨_, fresh, rfl⟩ (by omega) ?_).mono
    (fun _ _ _ => trivial) fun _ _ never => never
  intro inner frame onTier leased
  have read : List.Forall₂
      (fun source block => (inner.pin output).contents? source = some (.device block))
      sources blocks :=
    forall₂_of_mem pins fun source member block pinned =>
      (((pinned.frame made.frame (old source member)).frame frame
        (Set.notMem_empty _)).pin output).contents
  have lengthInside : (inner.pin output).lengthOf output = (layout.shortened fanIn).count := by
    rw [lengthOf_pin, lengthOf_frame frame (Set.notMem_empty _), length]
  rw [ends_bind_iff]
  refine (ends_blockOf (onAccelerator_pin onTier)).mono ?_ fun _ _ failed => failed
  rintro target _ ⟨rfl, written⟩
  refine ends_launchPass_of_steady steady addressable long sized keeps leased.accounted kept
    lengthInside read written fun views viewed => gives views ?_
  refine forall₂_of_mem viewed fun source member values reads => ?_
  rw [← reads, reading?_pin, frame.readings source (Set.notMem_empty _) (Set.notMem_empty _),
    made.frame.readings source (old source member) (Set.notMem_empty _)]

/-- A pass from one buffer into another, with room for both. -/
theorem ends_passBetween_of_room
    (different : current ≠ output)
    (free : store.Free current)
    (freeOutput : store.Free output)
    (length : store.lengthOf current = layout.count)
    (lengthOutput : store.lengthOf output = (layout.shortened fanIn).count)
    (room : loadOf held + (layout.count + (layout.shortened fanIn).count) ≤ make.capacity) :
    Ends
      (withLease current .accelerator do
        withLease output .accelerator do
          layout.launchPass fanIn combine () firstInput
            [← blockOf current] (← blockOf output))
      store (fun _ _ => True) failed := by
  refine ends_withLease_of_room steady within free (by omega) ?_
  intro first frame onTier leased
  have claimed : (first.pin current).claim? output = store.claim? output := by
    rw [claim?_pin, if_neg different, frame.claims output (Set.notMem_empty _)]
  have freeInside : (first.pin current).Free output := by
    obtain ⟨claim, present, unleased⟩ := freeOutput
    exact ⟨claim, claimed.trans present, unleased⟩
  have lengthInside : (first.pin current).lengthOf output = (layout.shortened fanIn).count := by
    rw [lengthOf, claimed]
    exact lengthOutput
  have load : loadOf ((current, store.lengthOf current) :: held) =
      store.lengthOf current + loadOf held := List.sum_cons
  refine ends_withLease_of_room steady leased freeInside (by omega) ?_
  intro second later onTierOutput both
  obtain ⟨block, stored⟩ := onAccelerator_pin onTier
  obtain ⟨claim, present, -⟩ := free
  have pins : (first.pin current).Pins current block := by
    refine ⟨stored, claim.pin, ?_, Nat.succ_pos _⟩
    rw [claim?_pin, if_pos rfl, frame.claims current (Set.notMem_empty _), present,
      Option.map_some]
  have pinsInside := (pins.frame later (Set.notMem_empty _)).pin output
  have sameLength : ∀ other, (second.pin output).lengthOf other = store.lengthOf other := by
    intro other
    rw [lengthOf_pin, lengthOf_frame later (Set.notMem_empty _), lengthOf_pin,
      lengthOf_frame frame (Set.notMem_empty _)]
  rw [ends_bind_iff]
  refine (ends_blockOf ⟨block, pinsInside.contents⟩).mono ?_ fun _ _ failed => failed
  rintro input _ ⟨rfl, read⟩
  rw [ends_bind_iff]
  refine (ends_blockOf (onAccelerator_pin onTierOutput)).mono ?_ fun _ _ failed => failed
  rintro target _ ⟨rfl, written⟩
  refine ends_launchPass_of_steady steady addressable long sized
    (fun _ => True) both.accounted trivial
    ((sameLength output).trans lengthOutput) (.cons read .nil) written ?_
  intro views viewed
  cases viewed with
  | @cons _ values _ _ reads rest =>
    cases rest
    have size := size_of_reading both.accounted.valid reads
    rw [sameLength current, length] at size
    exact size ▸ gives_firstInput values

/-- A later pass, with room for the buffers before and after it. -/
theorem ends_nextPass_of_room
    (claimed : store.claim? current = some (.fresh layout.count))
    (room : loadOf held + (layout.count + (layout.shortened fanIn).count) ≤ make.capacity) :
    Ends (layout.nextPass fanIn combine current) store (fun _ _ => True) failed := by
  obtain ⟨old, reads, -⟩ := exists_reading within.accounted.valid claimed
  unfold nextPass
  rw [ends_bind_iff]
  refine ((ends_allocateRuns within.accounted.valid).and ((within_allocateRuns store within).and
    (ends_allocateRuns_of_addressable addressable long))).mono ?_ fun _ _ never => never.2.2
  rintro output middle ⟨⟨made, fresh⟩, booked, -⟩
  have different : current ≠ output := by
    rintro rfl
    rw [made.absent] at claimed
    cases claimed
  have still : middle.claim? current = some (.fresh layout.count) :=
    (made.frame.claims current different).trans claimed
  have stillReads : middle.reading? current = some old := by
    rw [made.frame.readings current different (Set.notMem_empty _), reads]
  rw [ends_bind_iff, ends_unlessDone_iff, ends_bind_iff]
  refine ((ends_passBetween made.frame.valid (Nat.lt_of_lt_of_le Nat.zero_lt_two long) different
    stillReads fresh rfl).and (ends_passBetween_of_room steady addressable long sized booked
      different ⟨_, still, rfl⟩ ⟨_, fresh, rfl⟩ ?_ ?_ room)).mono ?_ fun _ _ never => never.2
  · rw [lengthOf, still]
    rfl
  · rw [lengthOf, fresh]
    rfl
  · rintro _ last ⟨⟨frame, -⟩, -⟩
    have free : last.Free current :=
      ⟨_, (frame.claims current (Set.notMem_empty _)).trans still, rfl⟩
    exact (ends_release_of_free free).mono (fun _ _ _ => trivial) fun _ _ never => never

/-- The passes that are left, with room for what they start from twice. -/
theorem ends_laterPasses_of_room
    {base : Store α}
    {lists : Nat → Nat → List α}
    (made : Made (layout.Holds lists) base store current)
    (room : loadOf held + 2 * layout.count ≤ make.capacity) :
    Ends (layout.laterPasses fanIn long combine current) store (fun _ _ => True) failed := by
  have positive : 0 < fanIn := Nat.lt_of_lt_of_le Nat.zero_lt_two long
  induction size : layout.length using Nat.strong_induction_on
    generalizing layout store current lists with
  | _ total step =>
    unfold laterPasses
    split
    next many =>
      have fewer : (layout.shortened fanIn).count ≤ layout.count := count_shortened_le long
      have roomAfter : loadOf held + 2 * (layout.shortened fanIn).count ≤ make.capacity := by
        omega
      have claimed := claim_of_made made
      obtain ⟨old, reads, -⟩ := made.reads
      rw [ends_bind_iff, ends_unlessDone_iff]
      refine ((ends_nextPass made.frame.valid positive claimed reads).and
        ((within_nextPass store within).and (ends_nextPass_of_room steady addressable long sized
          within claimed (by omega)))).mono ?_ fun _ _ never => never.2.2
      rintro next middle ⟨⟨absent, frame, fresh, passedOver⟩, booked, -⟩
      rw [ends_bind_iff, ends_modify_iff]
      exact step _ (size ▸ Size.runs_lt many long) (addressable.shortened long) booked.drop
        (Made.next made absent frame fresh passedOver) roomAfter rfl
    next => trivial

end

/--
A whole reduction, with room for the results of its first pass twice.
-/
theorem ends_treeReduce_of_room
    {store : Store α}
    {held : List (BufferId × Nat)}
    {sources : List BufferId}
    {failed : Error → Store α → Prop}
    {get : Nat → α}
    (keeps : ω → Prop)
    (steady : make.Steady)
    (addressable : layout.Addressable)
    (sized : fanIn < Size.limit)
    (within : store.Within make (quotaOf held))
    (kept : keeps initial)
    (pins : List.Forall₂ store.Pins sources blocks)
    (yields : ∀ views,
      List.Forall₂ (fun buffer values => store.reading? buffer = some values) sources views →
      source.Yields views.toArray keeps layout.count get)
    (gives : ∀ views,
      List.Forall₂ (fun buffer values => store.reading? buffer = some values) sources views →
      source.Gives views.toArray keeps layout.count)
    (room : loadOf held + 2 * (layout.shortened (max fanIn Config.minFanIn)).count ≤
      make.capacity) :
    Ends (layout.treeReduce fanIn combine blocks initial source) store
      (fun _ _ => True) failed := by
  have long : 2 ≤ max fanIn Config.minFanIn := Nat.le_max_right ..
  have positive : 0 < max fanIn Config.minFanIn := Nat.lt_of_lt_of_le Nat.zero_lt_two long
  have sizedWidth : max fanIn Config.minFanIn < Size.limit := Nat.max_lt.2 ⟨sized, by decide⟩
  unfold treeReduce
  rw [ends_bind_iff]
  refine ((ends_firstPass within.accounted.valid positive kept pins yields).and
    ((within_firstPass store within).and (ends_firstPass_of_room steady addressable long sizedWidth
      within kept pins gives (by omega)))).mono ?_ fun _ _ never => never.2.2
  rintro first middle ⟨made, booked, -⟩
  exact ends_laterPasses_of_room steady (addressable.shortened long)
    long sizedWidth booked made room

end AxisLayout

namespace Store

variable
    [Arithmetic α]
    {store : Store α}
    {buffer : BufferId}
    {failed : Error → Store α → Prop}

theorem within_take :
    Preserves (Within make quota) (take buffer : Action α (Array α)) :=
  preserves_followedBy
    (.bind within_read fun _ => .bind within_release fun _ => .pure _)
    fun _ within => within.drop

/-- A buffer that nobody leases can be read for the last time. -/
theorem ends_take_of_free
    (steady : make.Steady)
    (within : store.Within make quota)
    (free : store.Free buffer) :
    Ends (take buffer) store (fun _ _ => True) failed := by
  unfold take
  rw [ends_followedBy_iff, ends_bind_iff]
  refine ((ends_read within.accounted.valid).and (ends_read_of_free steady within free)).mono ?_
    fun _ _ never => never.2
  rintro values middle ⟨⟨frame, -⟩, -⟩
  rw [ends_bind_iff]
  exact (ends_release_of_free (free.frame frame (Set.notMem_empty _))).mono
    (fun _ _ _ => trivial) fun _ _ never => never

end Store

end Elementwise
