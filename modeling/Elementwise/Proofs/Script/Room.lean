import Elementwise.Proofs.Buffer.Room
import Elementwise.Proofs.Script.Forward

/-!
# How much room a script needs

A script runs with its data and its output leased at once, so it runs just if
they fit on the accelerator together.  Whatever is there before can be moved
off, and on an accelerator that never fails nothing else can go wrong.
-/

namespace Elementwise.Script

open Store

variable
    {α : Type}
    {make : Make}
    {quota : Quota}
    {script : Script}

/-! ## Leases given back -/

theorem preserves_checkSupported
    {holds : Store α → Prop}
    (script : Script) :
    Preserves holds (script.checkSupported : Store.Action α Unit) := by
  refine .bind .get fun store => ?_
  dsimp only
  split
  · exact .throw _
  · exact .pure _

variable [Arithmetic α]

theorem within_runBlocks
    {inputs : List Block}
    {output : Block}
    {length : Nat} :
    Preserves (Within make quota)
      (script.runBlocks inputs output length : Store.Action α Unit) := by
  unfold runBlocks
  dsimp only
  split
  · exact within_launch
  · split
    · exact .throw _
    · split
      · exact within_copy
      · exact within_launch

theorem within_forward
    (script : Script)
    (data : List BufferId)
    (output : BufferId) :
    Preserves (Within make quota) (script.forward data output : Store.Action α Unit) :=
  .bind (preserves_checkSupported script) fun _ =>
    within_withLeases data fun _ =>
      .bind (.mapM data fun _ => preserves_blockOf) fun _ =>
        within_withLease fun _ => .bind preserves_blockOf fun _ =>
          .bind preserves_find fun _ => within_runBlocks

/-! ## Room for a run -/

/-- The accelerator has a program for every operation of a script. -/
def SupportedBy (script : Script) (make : Make) : Prop :=
  ∀ record ∈ script.records, record.opcode ∉ make.unsupported

omit [Arithmetic α] in
theorem ends_checkSupported_of_supported
    {others : Others α}
    {store : Store α}
    {failed : Error → Store α → Prop}
    (accounted : store.Accounted make others)
    (supported : script.SupportedBy make) :
    Ends script.checkSupported store (fun _ after => after = store) failed := by
  have same : store.accelerator.pool.unsupported = make.unsupported :=
    congrArg Make.unsupported accounted.made
  have none : script.records.find? (!store.accelerator.pool.supports ·.opcode) = none := by
    rw [List.find?_eq_none]
    intro record member
    simp [Pool.supports, same, supported record member]
  unfold checkSupported
  rw [ends_bind_iff, ends_get_iff]
  dsimp only
  rw [none]
  rfl

/-- A script that computes something on all its data runs just if data and output fit. -/
theorem ends_forward_full
    {before : Store α}
    {data : List BufferId}
    {output : BufferId}
    (steady : make.Steady)
    (within : before.Within make (quotaOf []))
    (distinct : (output :: data).Nodup)
    (free : ∀ buffer ∈ output :: data, before.Free buffer)
    (supported : script.SupportedBy make)
    (computed : script.passedSlot? = none)
    (computes : ∀ views,
      List.Forall₂ (fun buffer values => before.reading? buffer = some values) data views →
      ∃ rows, script.kernel.rows views.toArray (before.lengthOf output) = .ok rows) :
    Ends (script.forward data output) before
      (fun _ _ => before.extent (output :: data) ≤ make.capacity)
      (fun reason _ => Full make.capacity (before.extent (output :: data)) reason) := by
  obtain ⟨apart, distinctData⟩ := List.nodup_cons.1 distinct
  have total : before.extent (output :: data) = before.lengthOf output + before.extent data :=
    List.sum_cons
  have load : loadOf (before.leasing data []) = before.extent data := loadOf_leasing ..
  unfold forward
  rw [ends_bind_iff]
  refine (ends_checkSupported_of_supported within.accounted supported).mono ?_
    fun _ _ failed => failed
  rintro _ before rfl
  refine ends_withLeases_full steady within distinctData
    (fun buffer member => free buffer (List.mem_cons_of_mem _ member))
    (fun reason full => full.mono (by omega)) ?_
  intro inside leased booked
  have sameLength := leased.lengthOf output
  rw [ends_bind_iff]
  refine (ends_mapM_blockOf leased fun _ member => member).mono ?_ fun _ _ never => never
  rintro inputs inside ⟨rfl, pins⟩
  refine ends_withLease_full steady booked (leased.free (free output List.mem_cons_self) apart)
    (fun reason full => full.mono (by omega)) ?_
  intro middle frame onTier both
  have blocks := pins.imp fun _ _ pins =>
    ((pins.frame frame (Set.notMem_empty _)).pin output).contents
  -- all buffers of the script are on the accelerator at this point
  have there : ∀ buffer ∈ output :: data, (middle.pin output).OnAccelerator buffer := by
    rintro buffer (_ | ⟨_, member⟩)
    · exact onAccelerator_pin onTier
    · obtain ⟨block, -, stored⟩ := exists_of_forall₂ blocks buffer member
      exact ⟨block, stored⟩
  have lengths : (middle.pin output).lengthOf = before.lengthOf := by
    funext buffer
    rw [lengthOf_pin, lengthOf_frame frame (Set.notMem_empty _), leased.lengthOf]
  have readings : (middle.pin output).reading? = before.reading? := by
    rw [reading?_pin, ← leased.readings]
    funext buffer
    exact frame.readings buffer (Set.notMem_empty _) (Set.notMem_empty _)
  have fits : before.extent (output :: data) ≤ make.capacity := by
    rw [extent, ← lengths]
    exact both.extent_le_capacity distinct there
  rw [ends_bind_iff]
  refine (ends_blockOf (onAccelerator_pin onTier)).mono ?_ fun _ _ never => never
  rintro target _ ⟨rfl, written⟩
  rw [ends_bind_iff]
  refine ends_find ?_ fun absent => ?_
  · intro found claimed _
    have length : found.length = before.lengthOf output := by
      rw [← lengths, Store.lengthOf, claimed]
      rfl
    unfold runBlocks
    rw [computed, length]
    refine (ends_launch_of_steady steady both.accounted blocks (.cons written .nil) ?_ ?_).mono
      (fun _ _ _ => fits) fun _ _ never => never
    · intro buffer member
      rw [List.mem_singleton.1 member, lengths]
    · intro views viewed
      rw [readings] at viewed
      exact computes views viewed
  · obtain ⟨claim, claimed⟩ := exists_claim written
    rw [absent] at claimed
    cases claimed

end Elementwise.Script
