import Elementwise.Proofs.Device.Launch
import Elementwise.Proofs.Buffer.Access

/-!
# Launches seen from the buffers

A launch over the blocks of some buffers reads what its sources read as and
writes its columns to the targets.  No other reading changes, and when it fails
none does.
-/

namespace Elementwise

/-! ## Calls of the accelerator on the blocks of buffers -/

namespace Store

variable {α : Type} [Arithmetic α] {store : Store α}

/-- A buffer on the accelerator reads as its block does. -/
theorem reading?_of_device
    {buffer : BufferId}
    {block : Block}
    (held : store.contents? buffer = some (.device block)) :
    store.reading? buffer = store.accelerator.pool.blocks.get? block.handle := by
  obtain ⟨claim, claimed⟩ := exists_claim held
  rw [reading?_eq, claimed, held]
  rfl

/-- A buffer on the accelerator reads as an array of the length of its block. -/
theorem exists_reading_of_device
    (valid : store.Valid)
    {buffer : BufferId}
    {block : Block}
    (held : store.contents? buffer = some (.device block)) :
    ∃ values, store.reading? buffer = some values ∧ values.size = block.length := by
  obtain ⟨claim, claimed⟩ := exists_claim held
  obtain ⟨values, reads, size⟩ := exists_reading valid claimed
  obtain ⟨length, -⟩ := valid.fits buffer claim _ claimed held
  exact ⟨values, reads, size.trans length.symm⟩

theorem exists_readings
    (valid : store.Valid)
    {buffers : List BufferId}
    {blocks : List Block}
    (held : List.Forall₂ (fun buffer block => store.contents? buffer = some (.device block))
      buffers blocks) :
    ∃ views, List.Forall₂ (fun buffer values => store.reading? buffer = some values)
      buffers views := by
  induction held with
  | nil => exact ⟨[], .nil⟩
  | cons first _ step =>
    obtain ⟨views, rest⟩ := step
    obtain ⟨values, reads, -⟩ := exists_reading_of_device valid first
    exact ⟨values :: views, .cons reads rest⟩

omit [Arithmetic α] in
/-- The blocks of different buffers have different handles. -/
theorem nodup_handles
    (valid : store.Valid)
    {buffers : List BufferId}
    {blocks : List Block}
    (held : List.Forall₂ (fun buffer block => store.contents? buffer = some (.device block))
      buffers blocks)
    (distinct : buffers.Nodup) :
    (blocks.map Block.handle).Nodup := by
  induction held with
  | nil => exact List.nodup_nil
  | @cons buffer block buffers blocks first rest step =>
    rw [List.nodup_cons] at distinct
    rw [List.map_cons, List.nodup_cons]
    refine ⟨fun member => ?_, step distinct.2⟩
    obtain ⟨shared, among, same⟩ := List.mem_map.1 member
    obtain ⟨position, found⟩ := List.getElem?_of_mem among
    obtain ⟨inside, rfl⟩ := List.getElem?_eq_some_iff.1 found
    have inBuffers : position < buffers.length := by
      rw [rest.length_eq]
      exact inside
    have other := rest.get inBuffers inside
    have equal := valid.apart buffer _ block _ first other same.symm
    exact distinct.1 (equal ▸ List.get_mem ..)

omit [Arithmetic α] in
/-- Only the targets are behind the blocks that a call writes. -/
theorem behind_subset
    (valid : store.Valid)
    {targets : List BufferId}
    {outputs : List Block}
    (held : List.Forall₂ (fun buffer block => store.contents? buffer = some (.device block))
      targets outputs) :
    store.behind (fun handle => ∃ output ∈ outputs, output.handle = handle) ⊆
      { buffer | buffer ∈ targets } := by
  rintro other ⟨block, stored, output, among, same⟩
  obtain ⟨position, inside, rfl⟩ := List.getElem_of_mem among
  have inTargets : position < targets.length := by
    rw [held.length_eq]
    exact inside
  have target := held.get inTargets inside
  have equal := valid.apart other _ block _ stored target same.symm
  exact equal ▸ List.get_mem ..

section

variable
    {ω : Type}
    {length : Nat}
    {sources targets : List BufferId}
    {inputs outputs : List Block}
    {kernel : Kernel α ω}
    (valid : store.Valid)
    (read : List.Forall₂ (fun buffer block => store.contents? buffer = some (.device block))
      sources inputs)
    (written : List.Forall₂ (fun buffer block => store.contents? buffer = some (.device block))
      targets outputs)

include valid read written

/-- A launch writes its columns to the blocks of the targets one after the other. -/
theorem ends_launchBlocks :
    Ends (perform (Accelerator.launch length inputs outputs kernel)) store
      (fun _ after => Frame ∅ { buffer | buffer ∈ targets } store after ∧
        after.contents? = store.contents? ∧
        ∃ views rows,
          List.Forall₂ (fun buffer values => store.reading? buffer = some values)
            sources views ∧
          kernel.rows views.toArray (if outputs.isEmpty then 0 else length) = .ok rows ∧
          after.accelerator.pool.blocks =
            Pool.writeColumns rows 0 outputs store.accelerator.pool.blocks)
      (fun _ after => Frame ∅ ∅ store after) := by
  refine ends_perform ?_ fun reason calls => (alike_called store calls).frame valid
  intro _ pool calls acted
  obtain ⟨next, done, same⟩ := map_eq_ok_iff.1 acted
  cases same
  obtain ⟨views, rows, viewed, ran, blocks, keeps, named⟩ := Pool.launch_eq_ok valid.named done
  have frame := frame_of_accelerator valid
    { store.accelerator with pool := pool, calls := calls } keeps named
  refine ⟨frame.mono (Set.Subset.refl _) (behind_subset valid written), rfl, views, rows, ?_, ran,
    blocks⟩
  refine List.forall₂_iff_get.2 ⟨read.length_eq.trans viewed.length_eq, ?_⟩
  intro position inSources inViews
  have inInputs : position < inputs.length := by
    rw [← read.length_eq]
    exact inSources
  rw [reading?_of_device (read.get inSources inInputs)]
  exact viewed.get inInputs inViews

/-- A launch writes a column to each target and changes nothing else. -/
theorem ends_launch (distinct : targets.Nodup) :
    Ends (perform (Accelerator.launch length inputs outputs kernel)) store
      (fun _ after => Frame ∅ { buffer | buffer ∈ targets } store after ∧
        ∃ views rows,
          List.Forall₂ (fun buffer values => store.reading? buffer = some values)
            sources views ∧
          kernel.rows views.toArray (if outputs.isEmpty then 0 else length) = .ok rows ∧
          ∀ column target, targets[column]? = some target →
            after.reading? target = (store.reading? target).map (Pool.writeColumn rows column))
      (fun _ after => Frame ∅ ∅ store after) := by
  refine (ends_launchBlocks valid read written).mono ?_ fun _ _ frame => frame
  rintro _ after ⟨frame, contents, views, rows, viewed, ran, blocks⟩
  refine ⟨frame, views, rows, viewed, ran, fun column target found => ?_⟩
  obtain ⟨inTargets, rfl⟩ := List.getElem?_eq_some_iff.1 found
  have inOutputs : column < outputs.length := by
    rw [← written.length_eq]
    exact inTargets
  have stored : store.contents? targets[column] = some (.device outputs[column]) :=
    written.get inTargets inOutputs
  have storedAfter : after.contents? targets[column] = some (.device outputs[column]) := by
    rw [contents, stored]
  rw [reading?_of_device storedAfter, reading?_of_device stored, blocks,
    Pool.get?_writeColumns rows 0 _ (nodup_handles valid written distinct)
      (List.getElem?_eq_getElem inOutputs), Nat.zero_add]

end

/-- A copy makes its target read as its source. -/
theorem ends_copy
    (valid : store.Valid)
    {source target : BufferId}
    {input output : Block}
    (read : store.contents? source = some (.device input))
    (written : store.contents? target = some (.device output)) :
    Ends (perform (Accelerator.copy input output)) store
      (fun _ after => Frame ∅ {target} store after ∧
        after.reading? target = store.reading? source)
      (fun _ after => Frame ∅ ∅ store after) := by
  refine ends_perform ?_ fun reason calls => (alike_called store calls).frame valid
  intro _ pool calls acted
  obtain ⟨next, done, same⟩ := map_eq_ok_iff.1 acted
  cases same
  obtain ⟨values, found, keeps, named, copied⟩ := Pool.copy_eq_ok valid.named done
  have frame := frame_of_accelerator valid
    { store.accelerator with pool := pool, calls := calls } keeps named
  have only : store.behind (· = output.handle) ⊆ {target} := by
    rintro other ⟨shared, held, same⟩
    exact valid.apart other target shared output held written same
  have writtenAfter : (store.called calls pool).contents? target = some (.device output) := written
  refine ⟨frame.mono (Set.Subset.refl _) only, ?_⟩
  rw [reading?_of_device writtenAfter, reading?_of_device read, found]
  exact copied

end Store

end Elementwise
