import Elementwise.Proofs.Buffer.Holding
import Elementwise.Proofs.Gradient.Room

/-!
# Who holds the results of passes

Every pass of a reduction makes a buffer and gives up the one before; the last
one is handed to the caller, who reads it and gives it up as well.  A backward
pass makes buffers for the adjoints that are summed, and sums them in passes.
At whatever step that fails, nothing of it stays.
-/

namespace Elementwise.Store

variable
    {α β : Type}
    [Arithmetic α]
    {store : Store α}
    {holding : Holding}
    {buffer : BufferId}

/-! ## Results that are read for the last time -/

/-- A buffer that is read for the last time is given up. -/
theorem ends_take_held
    (held : store.Held (holding.more buffer)) :
    Ends (take buffer) store (fun _ after => after.Held holding) fun _ after =>
      after.Held holding := by
  have reads : Preserves (Held (holding.more buffer))
      (do
        let values ← read buffer
        release buffer
        return values : Action α (Array α)) :=
    .bind (enduring_held _).read fun _ => .bind ((enduring_held _).ensure .empty) fun _ => .pure _
  unfold take
  rw [ends_followedBy_iff]
  exact (reads store held).mono (fun _ _ after => after.drop) fun _ _ after => after.drop

/-- A buffer that is handed over and read for the last time is given up. -/
theorem held_take
    {makes : Action α BufferId}
    (handsOver : HandsOver makes) :
    Preserves (Held holding) (makes >>= take) := by
  intro store held
  rw [ends_bind_iff]
  exact (handsOver holding store held).mono (fun _ _ made => ends_take_held made)
    fun _ _ after => after

end Elementwise.Store

namespace Elementwise

open Store (Held HandsOver enduring_held handsOver_allocate held_take held_withBuffers
  preserves_blockOf preserves_find)

/-! ## Reductions -/

section

variable
    {α ω : Type}
    [Arithmetic α]
    {layout : AxisLayout}
    {fanIn : Nat}
    {combine : α → α → α}
    {blocks : List Block}
    {initial : ω}
    {source : Source α ω}

namespace AxisLayout

omit [Arithmetic α] in
theorem handsOver_allocateRuns :
    HandsOver (layout.allocateRuns fanIn : Store.Action α BufferId) := by
  intro holding store held
  unfold allocateRuns
  rw [ends_bind_iff]
  exact Store.ends_check (fun length _ => handsOver_allocate length holding store held)
    fun _ => held

theorem held_launchPass
    {holding : Store.Holding}
    {output : Block} :
    Preserves (Held holding) (layout.launchPass fanIn combine initial source blocks output) :=
  .bind (Store.preserves_check _) fun _ => (enduring_held holding).perform _

theorem handsOver_firstPass :
    HandsOver (layout.firstPass fanIn combine blocks initial source) :=
  handsOver_allocateRuns.bind fun holding _ =>
    (enduring_held holding).withLease (.bind preserves_blockOf fun _ => held_launchPass)

theorem handsOver_nextPass
    {current : BufferId} :
    HandsOver (layout.nextPass fanIn combine current) :=
  handsOver_allocateRuns.bind fun holding _ =>
    .bind
      ((enduring_held holding).withLease ((enduring_held holding).withLease
        (.bind preserves_blockOf fun _ => .bind preserves_blockOf fun _ => held_launchPass)))
      fun _ => (enduring_held holding).ensure .empty

/-- Each pass gives up the result of the pass before. -/
theorem ends_laterPasses_held
    (long : 2 ≤ fanIn)
    {holding : Store.Holding}
    {current : BufferId}
    {store : Store α}
    (held : store.Held (holding.more current)) :
    Ends (layout.laterPasses fanIn long combine current) store
      (fun result after => after.Held (holding.more result)) fun _ after => after.Held holding := by
  induction size : layout.length using Nat.strong_induction_on
    generalizing layout current store with
  | _ length step =>
    unfold laterPasses
    split
    next many =>
      rw [ends_bind_iff, Store.ends_unlessDone_iff]
      refine (handsOver_nextPass _ store held).mono ?_ fun _ _ after => after.drop
      intro next passed both
      rw [ends_bind_iff, ends_modify_iff]
      have swapped : passed.Held ((holding.more next).more current) :=
        both.mono fun other => Nat.le_of_eq (Nat.add_right_comm ..)
      exact step _ (size ▸ Size.runs_lt many long) swapped.drop rfl
    next => exact held

theorem handsOver_treeReduce :
    HandsOver (layout.treeReduce fanIn combine blocks initial source) := by
  intro holding store held
  unfold treeReduce
  rw [ends_bind_iff]
  exact (handsOver_firstPass holding store held).mono
    (fun _ _ first => ends_laterPasses_held _ first) fun _ _ after => after

end AxisLayout

end

/-! ## Gradients -/

namespace Gradient

variable
    {α : Type}
    [Element α]
    {holding : Store.Holding}
    {domain fanIn : Nat}
    {buffer : BufferId}

theorem held_sumUp :
    Preserves (Held holding) (sumUp buffer domain fanIn : Store.Action α (Array α)) := by
  refine held_take fun holding store held => ?_
  refine (enduring_held holding).ends_withLease (fun _ => enduring_held _) ?_ held
  intro leased held
  rw [ends_bind_iff]
  exact (preserves_blockOf leased held).mono
    (fun _ _ held => AxisLayout.handsOver_treeReduce holding _ held) fun _ _ held => held

theorem held_addAdjoints
    {plan : Plan}
    {data : List BufferId}
    {targets : List Target} :
    Preserves (Held holding)
      (addAdjoints plan data targets domain fanIn : Store.Action α Unit) := by
  refine .bind (.mapM targets fun _ => .bind preserves_find fun _ => .pure _) fun sized => ?_
  refine held_withBuffers _ fun holding spare => ?_
  have enduring := enduring_held (α := α) holding
  have swept : ∀ assignments,
      Preserves (Held holding) (launchSweep plan data domain assignments : Store.Action α Unit) :=
    fun assignments => enduring.withLeases _
      (.bind (.mapM _ fun _ => preserves_blockOf) fun _ =>
        .bind (.mapM _ fun _ => preserves_blockOf) fun _ => enduring.perform _)
  refine .bind (swept _) fun _ => .forM _ fun assignment => ?_
  obtain ⟨target, spare⟩ := assignment
  cases spare with
  | none => exact .pure _
  | some spare =>
    exact .bind held_sumUp fun _ => .bind (enduring.ensure .empty) fun _ =>
      .bind (enduring.update _) fun _ => .pure _

end Gradient

end Elementwise
