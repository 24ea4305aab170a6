import Elementwise.Proofs.Buffer.Fitting
import Elementwise.Proofs.Script.Room

/-!
# Scripts that end as others do

A script that ran on its data runs again in any store where the data read the
same, if its output is as long there and the leases leave as much room.  If it was
refused, it is refused again, for the same cause.

A script that ran has shown that its data and its output fit together.
-/

namespace Elementwise.Script

open Store

variable
    {α : Type}
    [Arithmetic α]
    {make : Make}
    {script : Script}
    {before left right : Store α}
    {data : List BufferId}
    {output other : BufferId}

omit [Arithmetic α] in
/-- Accelerators of the same make support the same scripts. -/
theorem follows_checkSupported
    {others : Others α}
    (accounted : left.Accounted make others)
    (accountedOther : right.Accounted make others) :
    Follows script.checkSupported script.checkSupported left right
      fun _ _ after afterwards => after = left ∧ afterwards = right := by
  have same : right.accelerator.pool.unsupported = left.accelerator.pool.unsupported :=
    (congrArg Make.unsupported accountedOther.made).trans
      (congrArg Make.unsupported accounted.made).symm
  unfold checkSupported
  refine follows_bind (follows_get ?_)
  dsimp only
  simp only [Pool.supports, same]
  split
  · exact follows_throw
  · exact follows_pure ⟨rfl, rfl⟩

/-- A script that computes something on all its data runs just where it ran before. -/
theorem follows_forward
    (steady : make.Steady)
    (level : Level make left right)
    (distinct : data.Nodup)
    (apart : output ∉ data)
    (apartOther : other ∉ data)
    (same : ∀ buffer ∈ data, Corresponds left right buffer buffer)
    (sameOutput : Corresponds left right output other)
    (readings : ∀ buffer ∈ data, right.reading? buffer = left.reading? buffer)
    (computed : script.passedSlot? = none) :
    Follows (script.forward data output) (script.forward data other) left right
      fun _ _ _ _ => True := by
  unfold forward
  refine follows_bind ((follows_checkSupported level.accounted level.accountedOther).mono ?_)
  rintro _ _ left right ⟨rfl, rfl⟩
  refine follows_withLeases steady level (fun _ _ => True) distinct same ?_
  intro inside insideOther leased leasedOther level
  refine follows_bind ((follows_mapM_blockOf leased leasedOther).mono ?_)
  rintro inputs inputsOther inside insideOther ⟨rfl, rfl, pins, pinsOther⟩
  have sameInside := sameOutput.of_leased leased leasedOther apart apartOther
  refine follows_withLease steady level (fun _ _ => True) sameInside ?_
  intro both bothOther leasedBoth leasedBothOther level
  have read := pins.imp fun _ _ pins => (pins.of_leased leasedBoth).contents
  have readOther := pinsOther.imp fun _ _ pins => (pins.of_leased leasedBothOther).contents
  have there := leasedBoth.onAccelerator output List.mem_cons_self
  have thereOther := leasedBothOther.onAccelerator other List.mem_cons_self
  refine follows_bind ((follows_blockOf there thereOther).mono ?_)
  rintro target targetOther both bothOther ⟨rfl, rfl, written, writtenOther⟩
  have length : bothOther.lengthOf other = both.lengthOf output := by
    rw [leasedBothOther.lengthOf, leasedBoth.lengthOf, sameInside.lengthOf]
  refine follows_bind ((follows_find length (exists_claim written) (exists_claim writtenOther)).mono
    ?_)
  rintro found foundOther both bothOther ⟨rfl, rfl, foundLength, sameLength⟩
  rw [sameLength]
  unfold runBlocks
  rw [computed]
  refine follows_launch steady level read written readOther writtenOther
    (Nat.le_of_eq foundLength) ?_ (List.forall₂_same.2 fun buffer member => ?_)
  · rw [foundLength, length]
  · rw [leasedBothOther.readings, leasedOther.readings, leasedBoth.readings, leased.readings,
      readings buffer member]

/-! ## Scripts whose buffers fit -/

section

variable
    (accounted : before.Accounted make ∅)
    (distinct : (data ++ [output]).Nodup)
    (live : ∀ buffer ∈ data ++ [output], ∃ claim, before.claim? buffer = some claim)

include accounted distinct live

/-- A script that ran is supported, and its data and its output fit together. -/
theorem ends_forward_fits :
    Ends (script.forward data output) before
      (fun _ _ => script.SupportedBy make ∧ before.Fits make (data ++ [output]))
      fun _ _ => True := by
  have unsupported : before.accelerator.pool.unsupported = make.unsupported :=
    congrArg Make.unsupported accounted.made
  have perm := List.mergeSort_perm data fun left right => left.index ≤ right.index
  have supported : Ends script.checkSupported before
      (fun _ after => after = before ∧ script.SupportedBy make) fun _ _ => True := by
    unfold checkSupported
    rw [ends_bind_iff, ends_get_iff]
    dsimp only
    split
    · trivial
    next none =>
      refine ⟨rfl, fun record member => ?_⟩
      have known := List.find?_eq_none.1 none record member
      simpa [Pool.supports, unsupported] using known
  unfold forward
  rw [ends_bind_iff]
  refine supported.mono ?_ fun _ _ _ => trivial
  rintro _ before ⟨rfl, supports⟩
  refine (ends_withLeasesInOrder_fits accounted ((perm.append_right [output]).nodup_iff.2 distinct)
    (fun buffer member => live buffer (List.mem_append_left _ (perm.mem_iff.1 member)))
    fun inside leased books => ?_).mono
      (fun _ _ fits => ⟨supports, fits.perm (perm.append_right [output])⟩) fun _ _ _ => trivial
  rw [ends_bind_iff]
  refine (ends_mapM_blockOf (leased.perm perm) fun _ member => member).mono ?_
    fun _ _ holds => holds
  rintro inputs inside ⟨rfl, -⟩
  have liveOutput :=
    leased.stillLive (live output (List.mem_append_right _ (List.mem_singleton_self output)))
  exact ends_withLeasesInOrder_fits books (List.nodup_singleton output)
    (List.forall_mem_singleton.2 liveOutput) fun both _ booksBoth =>
      ends_of_holds (fits_nil booksBoth) trivial

/-- A supported script runs if its data and its output fit together. -/
theorem ends_forward_of_fits
    (steady : make.Steady)
    (supported : script.SupportedBy make)
    (fits : before.Fits make (data ++ [output]))
    (computed : script.passedSlot? = none)
    (computes : ∀ views,
      List.Forall₂ (fun buffer values => before.reading? buffer = some values) data views →
      ∃ rows, script.kernel.rows views.toArray (before.lengthOf output) = .ok rows) :
    Ends (script.forward data output) before (fun _ _ => True) fun _ _ => False := by
  have perm := List.mergeSort_perm data fun left right => left.index ≤ right.index
  unfold forward
  rw [ends_bind_iff]
  refine (ends_checkSupported_of_supported accounted supported).mono ?_ fun _ _ never => never
  rintro _ before rfl
  refine ends_withLeasesInOrder_of_fits accounted
    ((perm.append_right [output]).nodup_iff.2 distinct)
    (fun buffer member => live buffer (List.mem_append_left _ (perm.mem_iff.1 member))) steady
    (fits.perm (perm.append_right [output]).symm) fun inside leasedSorted books fitsInside => ?_
  have leased := leasedSorted.perm perm
  rw [ends_bind_iff]
  refine (ends_mapM_blockOf leased fun _ member => member).mono ?_ fun _ _ never => never
  rintro inputs inside ⟨rfl, pins⟩
  have liveOutput :=
    leased.stillLive (live output (List.mem_append_right _ (List.mem_singleton_self output)))
  refine ends_withLeasesInOrder_of_fits books (List.nodup_singleton output)
    (List.forall_mem_singleton.2 liveOutput) steady fitsInside
    fun both leasedBoth booksBoth _ => ?_
  have blocks := pins.imp fun _ _ pins => (pins.of_leased leasedBoth).contents
  have length : both.lengthOf output = before.lengthOf output := by
    rw [leasedBoth.lengthOf, leased.lengthOf]
  rw [ends_bind_iff]
  refine (ends_blockOf (leasedBoth.onAccelerator output List.mem_cons_self)).mono ?_
    fun _ _ never => never
  rintro target both ⟨rfl, written⟩
  rw [ends_bind_iff]
  refine ends_find ?_ fun absent => ?_
  · intro found again _
    have foundLength : found.length = both.lengthOf output := by
      rw [lengthOf, again]
      rfl
    unfold runBlocks
    rw [computed, foundLength]
    refine ends_launch_of_steady steady booksBoth blocks (.cons written .nil)
      (List.forall_mem_singleton.2 (Nat.le_refl _)) fun views viewed => ?_
    rw [leasedBoth.readings, leased.readings] at viewed
    rw [length]
    exact computes views viewed
  · obtain ⟨claim, claimed⟩ := exists_claim written
    rw [absent] at claimed
    cases claimed

end

end Elementwise.Script
