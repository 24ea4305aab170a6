import Elementwise.Proofs.Buffer.Reporting
import Elementwise.Proofs.Reduction.Room

/-!
# Reductions that end without a fault

Where all places of a layout are machine sizes, so are all sizes and places that the
passes of a reduction compute, and every element that they read is there.  So no
pass ends in a fault, however many there are and whatever the accelerator refuses.
-/

namespace Elementwise

variable {α ω : Type}

namespace AxisLayout

open Store

variable
    {layout : AxisLayout}
    {fanIn : Nat}

/-- Where a pass has a result, it divides by no zero. -/
theorem pos_of_lt_count
    {index : Nat}
    (inside : index < (layout.shortened fanIn).count) :
    0 < layout.inner ∧ 0 < Size.runs layout.length fanIn := by
  have inRuns : index < layout.outer * Size.runs layout.length fanIn * layout.inner := inside
  constructor
  · refine Nat.pos_of_ne_zero fun none => ?_
    rw [none, Nat.mul_zero] at inRuns
    exact Nat.not_lt_zero _ inRuns
  · refine Nat.pos_of_ne_zero fun none => ?_
    rw [none, Nat.mul_zero, Nat.zero_mul] at inRuns
    exact Nat.not_lt_zero _ inRuns

section

variable
    {store : Store α}
    (addressable : layout.Addressable)
    (long : 2 ≤ fanIn)

include addressable long

theorem reports_allocateRuns
    (faultless : store.Faultless) :
    Reports Faultless (layout.allocateRuns fanIn) store := by
  unfold allocateRuns
  rw [sizeAlong_isOk addressable long]
  exact faultless

variable
    [Arithmetic α]
    {combine : α → α → α}
    {initial : ω}
    {source : Source α ω}
    {blocks : List Block}
    {sources : List BufferId}
    {current : BufferId}
    (sized : fanIn < Size.limit)
    (faultless : store.Faultless)

include sized faultless

theorem reports_launchPass
    (keeps : ω → Prop)
    (kept : keeps initial)
    {target : Block}
    (read : List.Forall₂ (fun buffer block => store.contents? buffer = some (.device block))
      sources blocks)
    (gives : ∀ views,
      List.Forall₂ (fun buffer values => store.reading? buffer = some values) sources views →
      source.Gives views.toArray keeps layout.count) :
    Reports Faultless (layout.launchPass fanIn combine initial source blocks target) store := by
  unfold launchPass
  rw [sizeAlong_isOk addressable long]
  refine reports_launch faultless read fun views viewed => ?_
  exact Kernel.rows_isOk keeps kept fun index inside workspace holds =>
    passKernel_row_isOk addressable (gives views viewed) (by omega) sized inside holds

/-- The first pass, over a source that has all elements. -/
theorem reports_firstPass
    (keeps : ω → Prop)
    (valid : store.Valid)
    (kept : keeps initial)
    (pins : List.Forall₂ store.Pins sources blocks)
    (gives : ∀ views,
      List.Forall₂ (fun buffer values => store.reading? buffer = some values) sources views →
      source.Gives views.toArray keeps layout.count) :
    Reports Faultless (layout.firstPass fanIn combine blocks initial source) store := by
  refine .bind_ends (reports_allocateRuns addressable long faultless) (ends_allocateRuns valid) ?_
  rintro output middle faultless ⟨made, -⟩
  have old : ∀ source ∈ sources, source ∉ ({output} : Set BufferId) := by
    rintro source member rfl
    obtain ⟨block, -, pinned⟩ := exists_of_forall₂ pins source member
    obtain ⟨claim, claimed, -⟩ := pinned.leased
    rw [made.absent] at claimed
    cases claimed
  refine .bind (reports_unlessDone ?_) fun _ _ faultless => faultless
  refine reports_withLease made.frame.valid faultless fun inner frame onTier faultless => ?_
  have read : List.Forall₂
      (fun source block => (inner.pin output).contents? source = some (.device block))
      sources blocks :=
    forall₂_of_mem pins fun source member block pinned =>
      (((pinned.frame made.frame (old source member)).frame frame
        (Set.notMem_empty _)).pin output).contents
  refine .bind_still (ends_blockOf (onAccelerator_pin onTier)) fun target _ => ?_
  refine reports_launchPass addressable long sized faultless keeps kept read fun views viewed =>
    gives views ?_
  refine forall₂_of_mem viewed fun source member values reads => ?_
  rw [← reads, reading?_pin, frame.readings source (Set.notMem_empty _) (Set.notMem_empty _),
    made.frame.readings source (old source member) (Set.notMem_empty _)]

/-- A later pass, over a buffer that is as long as the layout says. -/
theorem reports_nextPass
    (valid : store.Valid)
    (claimed : store.claim? current = some (.fresh layout.count)) :
    Reports Faultless (layout.nextPass fanIn combine current) store := by
  obtain ⟨old, reads, size⟩ := exists_reading valid claimed
  refine .bind_ends (reports_allocateRuns addressable long faultless) (ends_allocateRuns valid) ?_
  rintro output middle faultless ⟨made, -⟩
  have different : current ∉ ({output} : Set BufferId) := by
    rintro rfl
    rw [made.absent] at claimed
    cases claimed
  refine .bind (reports_unlessDone (.bind ?_ fun _ _ faultless => reports_release faultless))
    fun _ _ faultless => faultless
  refine reports_withLease made.frame.valid faultless fun first frame onTier faultless => ?_
  refine reports_withLease (frame_pin frame.valid).valid faultless
    fun second later onTierOutput faultless => ?_
  obtain ⟨block, stored⟩ := onAccelerator_pin onTier
  have pins : (first.pin current).Pins current block := by
    refine ⟨stored, Claim.pin (.fresh layout.count), ?_, Nat.succ_pos _⟩
    rw [claim?_pin, if_pos rfl, frame.claims current (Set.notMem_empty _),
      made.frame.claims current different, claimed, Option.map_some]
  have read := ((pins.frame later (Set.notMem_empty _)).pin output).contents
  have still : (second.pin output).reading? current = some old := by
    rw [reading?_pin, later.readings current (Set.notMem_empty _) (Set.notMem_empty _),
      reading?_pin, frame.readings current (Set.notMem_empty _) (Set.notMem_empty _),
      made.frame.readings current different (Set.notMem_empty _), reads]
  refine .bind_still (ends_blockOf ⟨block, read⟩) fun input held => ?_
  refine .bind_still (ends_blockOf (onAccelerator_pin onTierOutput)) fun target _ => ?_
  refine reports_launchPass addressable long sized faultless (fun _ => True) trivial
    (.cons held .nil) fun views viewed => ?_
  cases viewed with
  | cons here rest =>
    cases rest
    rw [still] at here
    cases here
    have whole : old.size = layout.count := size
    exact whole ▸ gives_firstInput old

/-- The passes that are left. -/
theorem reports_laterPasses
    {base : Store α}
    {lists : Nat → Nat → List α}
    (made : Made (layout.Holds lists) base store current) :
    Reports Faultless (layout.laterPasses fanIn long combine current) store := by
  have positive : 0 < fanIn := Nat.lt_of_lt_of_le Nat.zero_lt_two long
  induction size : layout.length using Nat.strong_induction_on
    generalizing layout store current lists with
  | _ total step =>
    unfold laterPasses
    split
    next many =>
      have claimed := claim_of_made made
      obtain ⟨old, reads, -⟩ := made.reads
      have ends : Ends (layout.nextPass fanIn combine current) store _ _ :=
        ends_nextPass made.frame.valid positive claimed reads
      have reports : Reports Faultless (layout.nextPass fanIn combine current) store :=
        reports_nextPass addressable long sized faultless made.frame.valid claimed
      unfold Reports
      rw [ends_bind_iff, ends_unlessDone_iff]
      refine (reports.and ends).mono ?_ fun _ _ failed => failed.1
      rintro next middle ⟨faultless, absent, frame, fresh, passedOver⟩
      rw [ends_bind_iff, ends_modify_iff]
      exact step _ (size ▸ Size.runs_lt many long) (addressable.shortened long) faultless.drop
        (Made.next made absent frame fresh passedOver) rfl
    next => exact faultless

end

section

variable
    [Arithmetic α]
    {store : Store α}
    {sources : List BufferId}
    {blocks : List Block}
    {combine : α → α → α}
    {initial : ω}
    {source : Source α ω}
    {get : Nat → α}

/-- A whole reduction, over a source that has all elements. -/
theorem reports_treeReduce
    (keeps : ω → Prop)
    (addressable : layout.Addressable)
    (sized : fanIn < Size.limit)
    (valid : store.Valid)
    (faultless : store.Faultless)
    (kept : keeps initial)
    (pins : List.Forall₂ store.Pins sources blocks)
    (yields : ∀ views,
      List.Forall₂ (fun buffer values => store.reading? buffer = some values) sources views →
      source.Yields views.toArray keeps layout.count get)
    (gives : ∀ views,
      List.Forall₂ (fun buffer values => store.reading? buffer = some values) sources views →
      source.Gives views.toArray keeps layout.count) :
    Reports Faultless (layout.treeReduce fanIn combine blocks initial source) store := by
  have long : 2 ≤ max fanIn Config.minFanIn := Nat.le_max_right ..
  have positive : 0 < max fanIn Config.minFanIn := Nat.lt_of_lt_of_le Nat.zero_lt_two long
  have sizedWidth : max fanIn Config.minFanIn < Size.limit := Nat.max_lt.2 ⟨sized, by decide⟩
  refine .bind_ends
    (reports_firstPass addressable long sizedWidth faultless keeps valid kept pins gives)
    (ends_firstPass valid positive kept pins yields) ?_
  intro first middle faultless made
  exact reports_laterPasses (addressable.shortened long) long sizedWidth faultless made

end

end AxisLayout

theorem Store.reports_take
    [Arithmetic α]
    {store : Store α}
    {buffer : BufferId}
    (valid : store.Valid)
    (faultless : store.Faultless) :
    Reports Store.Faultless (Store.take buffer) store := by
  refine Store.reports_followedBy ?_ fun _ faultless => faultless.drop
  refine .bind (Store.reports_read valid faultless) fun values _ faultless => ?_
  exact .bind (Store.reports_release faultless) fun _ _ faultless => faultless

end Elementwise
