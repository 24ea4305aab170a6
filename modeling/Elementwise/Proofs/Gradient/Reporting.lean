import Elementwise.Proofs.Gradient.Room
import Elementwise.Proofs.Reduction.Reporting

/-!
# Backward passes that end without a fault

The launch of a pass reads nothing that is not there, and the sums that follow it
run along one axis that is as long as the output.  With at most half as many
elements in the output as there are machine sizes, the ends of all runs along that
axis are machine sizes, and nothing of a pass ends in a fault.
-/

namespace Elementwise.Gradient

open Store

variable
    {α : Type}
    [Element α]
    {plan : Plan}
    {data : List BufferId}
    {targets : List Target}
    {domain fanIn : Nat}
    {store : Store α}

/-- The launch of a pass, on data that have an element for every coordinate. -/
theorem reports_launchSweep
    (valid : store.Valid)
    (faultless : store.Faultless)
    (ordered : plan.Ordered)
    (enough : data.length = plan.dataLength)
    {assignments : List Assignment}
    (placed : ∀ assignment ∈ assignments,
      assignment.1.source.Before plan.dataLength plan.length)
    (lengths : ∀ target, (target, none) ∈ assignments → store.lengthOf target.buffer = domain)
    (readable : ∀ views,
      List.Forall₂ (fun buffer values => store.reading? buffer = some values) data views →
      ∀ coordinate < domain, Readable views.toArray plan.dataLength coordinate) :
    Reports Faultless (launchSweep plan data domain assignments) store := by
  refine reports_withLeases valid faultless fun inside leased faultless => ?_
  refine .bind_still (ends_mapM_blockOf leased fun _ member => List.mem_append_left _ member)
    fun blocks read => ?_
  refine .bind_still (ends_outputBlocks leased) fun outputs written => ?_
  refine reports_launch faultless (read.imp fun _ _ pins => pins.contents) fun views viewed => ?_
  rw [leased.readings] at viewed
  split
  · exact ⟨#[], rfl⟩
  · refine kernel_rows_isOk valid ordered enough placed lengths viewed (readable _ ?_)
    have first := List.forall₂_take data.length viewed
    rwa [List.take_left] at first

section

variable
    (half : 2 * domain ≤ Size.limit)
    (width : fanIn < Size.limit)

include half width

/-- The sum of a column. -/
theorem reports_sumUp
    (valid : store.Valid)
    (faultless : store.Faultless)
    {buffer : BufferId}
    {values : Array α}
    (reads : store.reading? buffer = some values)
    (size : values.size = domain) :
    Reports Faultless (sumUp buffer domain fanIn) store := by
  refine .bind_ends ?_ (ends_sumPasses valid reads size) fun total summed faultless made =>
    reports_take made.frame.valid faultless
  refine reports_withLease valid faultless fun middle frame onTier faultless => ?_
  have still : (middle.pin buffer).reading? buffer = some values := by
    rw [reading?_pin, frame.readings buffer (Set.notMem_empty _) (Set.notMem_empty _), reads]
  have leased : ∃ claim, (middle.pin buffer).claim? buffer = some claim ∧ 0 < claim.leases := by
    obtain ⟨contents, stored, -⟩ := onTier
    obtain ⟨held, claimed⟩ := exists_claim stored
    refine ⟨held.pin, ?_, Nat.succ_pos _⟩
    rw [claim?_pin, if_pos rfl, claimed, Option.map_some]
  refine .bind_still (ends_blockOf (onAccelerator_pin onTier)) fun block stored => ?_
  refine AxisLayout.reports_treeReduce (fun _ => True) (AxisLayout.addressable_flat half) width
    (frame_pin frame.valid).valid faultless trivial (.cons ⟨stored, leased⟩ .nil)
    (yields_of_reading still) fun views viewed => ?_
  cases viewed with
  | cons here rest =>
    cases rest
    rw [still] at here
    cases here
    have count : (AxisLayout.flat domain).count = values.size := by
      rw [size]
      show 1 * domain * 1 = domain
      rw [Nat.one_mul, Nat.mul_one]
    rw [count]
    exact gives_firstInput values

theorem reports_settle
    (valid : store.Valid)
    (faultless : store.Faultless)
    {assignment : Assignment}
    (sized : ∀ spare ∈ assignment.2, store.claim? spare = some (.fresh domain)) :
    Reports Faultless (settle domain fanIn assignment) store := by
  obtain ⟨target, spare⟩ := assignment
  cases spare with
  | none => exact faultless
  | some spare =>
    obtain ⟨values, reads, size⟩ := exists_reading valid (sized spare rfl)
    refine .bind (reports_sumUp half width valid faultless reads size) fun total _ faultless => ?_
    refine .bind (reports_release faultless) fun _ _ faultless => ?_
    exact .bind (reports_update faultless) fun _ _ faultless => faultless

/-- All sums that follow the launch. -/
theorem reports_settleAll
    {assignments : List Assignment}
    (valid : store.Valid)
    (faultless : store.Faultless)
    (distinct : (buffers assignments).Nodup)
    (sized : ∀ spare ∈ spares assignments, store.claim? spare = some (.fresh domain)) :
    Reports Faultless (assignments.forM (settle domain fanIn)) store := by
  induction assignments generalizing store with
  | nil => exact faultless
  | cons assignment assignments step =>
    obtain ⟨target, spare⟩ := assignment
    rw [buffers_cons] at distinct
    rw [spares_cons] at sized
    obtain ⟨own, later, -⟩ := List.nodup_append'.1 distinct
    have mine : ∀ other ∈ spare, store.claim? other = some (.fresh domain) := fun other member =>
      sized other (List.mem_append_left _ (Option.mem_toList.2 member))
    have settled : Ends (settle domain fanIn (target, spare)) store
        (fun _ after => ∃ written, Frame ∅ written store after) fun _ _ => True := by
      cases spare with
      | none => exact ⟨∅, .refl valid⟩
      | some spare =>
        obtain ⟨values, reads, size⟩ := exists_reading valid (mine spare rfl)
        have different : target.buffer ≠ spare := by
          rintro rfl
          exact (List.nodup_cons.1 own).1 (List.mem_singleton.2 rfl)
        exact (ends_settle valid different reads size).mono (fun _ _ done => ⟨_, done.1⟩)
          fun _ _ _ => trivial
    refine Reports.bind_ends (reports_settle half width valid faultless mine) settled ?_
    rintro _ middle faultless ⟨written, frame⟩
    refine step frame.valid faultless later fun other member => ?_
    rw [frame.claims other (Set.notMem_empty _), sized other (List.mem_append_right _ member)]

/-- A whole pass, on data that have an element for every coordinate. -/
theorem ends_addAdjoints_reports
    (valid : store.Valid)
    (faultless : store.Faultless)
    (ordered : plan.Ordered)
    (enough : data.length = plan.dataLength)
    (placed : ∀ target ∈ targets, target.source.Before plan.dataLength plan.length)
    (distinct : (targets.map (·.buffer)).Nodup)
    (live : ∀ buffer ∈ data ++ targets.map (·.buffer), store.claim? buffer ≠ none)
    (readable : ∀ views,
      List.Forall₂ (fun buffer values => store.reading? buffer = some values) data views →
      ∀ coordinate < domain, Readable views.toArray plan.dataLength coordinate) :
    Ends (addAdjoints plan data targets domain fanIn) store (fun _ _ => True)
      fun reason _ => reason.IsReport := by
  refine (ends_addAdjoints_of_assigned Faultless
    (fun _ => .modifyGet fun _ faultless => faultless) (fun _ => True)
    (fun reason _ => reason.IsReport) valid faultless distinct (fun _ _ _ _ => ⟨id, fun _ => id⟩)
    (fun target member absent => absurd absent (live _ (List.mem_append_right _
      (List.mem_map_of_mem member)))) ?_).mono (fun _ _ _ => trivial) fun _ _ failed => failed.2
  intro assignments middle assigns faultless
  have launched : Reports Faultless (launchSweep plan data domain assignments) middle := by
    refine reports_launchSweep assigns.frame.valid faultless ordered enough
      (fun assignment member => placed _ (assigns.mem_targets member))
      (fun target member => ?_) fun views viewed => ?_
    · obtain ⟨claim, claimed, fits⟩ := assigns.lengths target none member
      rw [lengthOf, claimed, Option.elim_some]
      exact fits
    · refine readable views (forall₂_of_mem viewed fun buffer member values reads => ?_)
      rw [← reads, assigns.reading?_eq
        (assigns.notMem_spares (live buffer (List.mem_append_left _ member)))]
  have swept := ends_launchSweep assigns.frame.valid ordered enough
    ((outputs_sublist assignments).nodup assigns.distinct) (claim?_output assigns.lengths)
  have whole : Reports Faultless
      (do
        launchSweep plan data domain assignments
        assignments.forM (settle domain fanIn))
      middle := by
    refine .bind_ends launched swept ?_
    rintro _ after faultless ⟨frame, -⟩
    refine reports_settleAll half width frame.valid faultless assigns.distinct fun own member => ?_
    rw [frame.claims own (Set.notMem_empty _), assigns.claim?_spare member]
  exact ((ends_assigned assigns.frame.valid ordered enough assigns.distinct assigns.lengths).and
    whole).mono (fun _ _ both => ⟨both.1.1, trivial⟩) fun _ _ both => ⟨both.1.1, both.2⟩

end

end Elementwise.Gradient
