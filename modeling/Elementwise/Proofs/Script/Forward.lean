import Elementwise.Script.Forward
import Elementwise.Proofs.Buffer.Launch

/-!
# What running a script leaves behind

A run of a script writes the output and nothing else.  Each element of the
output is what the records give at its coordinate, with a workspace of which
only the size is known.  A script that passes an input on may leave that input
instead.  A run that fails changes no reading at all.
-/

namespace Elementwise

variable {α : Type} [Arithmetic α]

/-! ## Workspaces keep their size -/

namespace Scratch

omit [Arithmetic α] in
theorem size_of_write
    {scratch after : Scratch α}
    {slot : Slot}
    {value : α}
    (written : scratch.write slot value = .ok after) :
    after.cache.size = scratch.cache.size := by
  cases slot with
  | data index =>
    cases written
    rfl
  | output =>
    cases written
    rfl
  | cache index =>
    obtain ⟨cache, changed, same⟩ := bind_eq_ok_iff.1 written
    cases same
    obtain ⟨-, rfl⟩ := setElement_eq_ok_iff.1 changed
    exact Array.size_setIfInBounds

theorem size_of_step
    {inputs : Array (Array α)}
    {coordinate : Nat}
    {scratch after : Scratch α}
    {record : Record}
    (ran : scratch.step inputs coordinate record = .ok after) :
    after.cache.size = scratch.cache.size := by
  obtain ⟨left, -, ran⟩ := bind_eq_ok_iff.1 ran
  obtain ⟨right, -, ran⟩ := bind_eq_ok_iff.1 ran
  exact size_of_write ran

theorem size_of_steps
    {inputs : Array (Array α)}
    {coordinate : Nat}
    {records : List Record}
    {scratch after : Scratch α}
    (ran : records.foldlM (step inputs coordinate) scratch = .ok after) :
    after.cache.size = scratch.cache.size := by
  induction records generalizing scratch with
  | nil =>
    cases ran
    rfl
  | cons record records next =>
    rw [List.foldlM_cons] at ran
    obtain ⟨middle, first, rest⟩ := bind_eq_ok_iff.1 ran
    rw [next rest, size_of_step first]

end Scratch

namespace Script

open Store

theorem size_of_evalAt
    {records : List Record}
    {inputs : Array (Array α)}
    {coordinate : Nat}
    {workspace after : Array α}
    {value : α}
    (ran : evalAt records inputs coordinate workspace = .ok (value, after)) :
    after.size = workspace.size := by
  obtain ⟨scratch, steps, same⟩ := bind_eq_ok_iff.1 ran
  cases same
  exact Scratch.size_of_steps steps

/-! ## Scripts that run over buffers -/

/-- Values that a run of a script leaves in an output of a given length. -/
structure Leaves (script : Script) (views : List (Array α)) (length : Nat) (values : Array α) :
    Prop where
  size : values.size = length
  elements : (∃ slot, script.passedSlot? = some slot ∧ views[slot]? = some values) ∨
    ∀ index, index < length → ∃ workspace next value, workspace.size = script.cacheSize ∧
      evalAt script.records views.toArray index workspace = .ok (value, next) ∧
      values[index]? = some value

omit [Arithmetic α] in
theorem ends_checkSupported
    {script : Script}
    {store : Store α} :
    Ends script.checkSupported store
      (fun _ after => after = store)
      (fun _ after => after = store) := by
  unfold checkSupported
  rw [ends_bind_iff, ends_get_iff]
  dsimp only
  split
  · rfl
  · rfl

/-- The rows of a script's kernel are what its records give. -/
theorem leaves_of_rows
    {script : Script}
    {views : List (Array α)}
    {rows : Array (Array α)}
    {length : Nat}
    {old : Array α}
    (size : old.size = length)
    (ran : script.kernel.rows views.toArray length = .ok rows) :
    Leaves script views length (Pool.writeColumn rows 0 old) := by
  have initial : (script.kernel (α := α)).initial.size = script.cacheSize :=
    Array.size_replicate
  obtain ⟨-, each⟩ := Kernel.rows_eq_ok (·.size = script.cacheSize) initial
    (fun index workspace row next kept done => by
      obtain ⟨⟨value, after⟩, evaluated, same⟩ := bind_eq_ok_iff.1 done
      cases same
      exact (size_of_evalAt evaluated).trans kept) ran
  refine ⟨(Pool.size_writeColumn ..).trans size, .inr fun index inside => ?_⟩
  obtain ⟨workspace, next, row, kept, done, found⟩ := each index inside
  obtain ⟨⟨value, after⟩, evaluated, same⟩ := bind_eq_ok_iff.1 done
  cases same
  refine ⟨workspace, next, value, kept, evaluated, ?_⟩
  rw [Pool.getElem?_writeColumn 0 found (size ▸ inside)]
  rfl

theorem ends_runBlocks
    {script : Script}
    {store : Store α}
    (valid : store.Valid)
    {data : List BufferId}
    {output : BufferId}
    {inputs : List Block}
    {target : Block}
    {held : Claim}
    (claimed : store.claim? output = some held)
    (read : List.Forall₂ (fun buffer block => store.contents? buffer = some (.device block))
      data inputs)
    (written : store.contents? output = some (.device target)) :
    Ends (script.runBlocks inputs target held.length) store
      (fun _ after => Frame ∅ {output} store after ∧ ∃ views values,
        List.Forall₂ (fun buffer values => store.reading? buffer = some values) data views ∧
        Leaves script views held.length values ∧ after.reading? output = some values)
      (fun _ after => Frame ∅ ∅ store after) := by
  obtain ⟨old, reads, size⟩ := exists_reading valid claimed
  have launched :
      Ends (perform (Accelerator.launch held.length inputs [target] script.kernel)) store
        (fun _ after => Frame ∅ {output} store after ∧ ∃ views values,
          List.Forall₂ (fun buffer values => store.reading? buffer = some values) data views ∧
          Leaves script views held.length values ∧ after.reading? output = some values)
        (fun _ after => Frame ∅ ∅ store after) := by
    refine (ends_launch valid read (.cons written .nil)
      (List.nodup_cons.2 ⟨List.not_mem_nil, .nil⟩)).mono ?_
      fun _ _ frame => frame
    rintro _ after ⟨frame, views, rows, viewed, ran, columns⟩
    refine ⟨frame.mono (Set.Subset.refl _) ?_, views, Pool.writeColumn rows 0 old, viewed,
      leaves_of_rows size ran, ?_⟩
    · intro other member
      exact List.mem_singleton.1 member
    · rw [columns 0 output rfl, reads, Option.map_some]
  unfold runBlocks
  dsimp only
  cases passed : script.passedSlot? with
  | none => exact launched
  | some slot =>
    dsimp only
    cases found : inputs[slot]? with
    | none => exact Frame.refl valid
    | some source =>
      dsimp only
      split
      next same =>
        obtain ⟨inInputs, rfl⟩ := List.getElem?_eq_some_iff.1 found
        have inData : slot < data.length := by
          rw [read.length_eq]
          exact inInputs
        have stored : store.contents? data[slot] = some (.device inputs[slot]) :=
          read.get inData inInputs
        refine (ends_copy valid stored written).mono ?_ fun _ _ frame => frame
        rintro _ after ⟨frame, copied⟩
        obtain ⟨views, viewed⟩ := exists_readings valid read
        obtain ⟨values, reads, length⟩ := exists_reading_of_device valid stored
        have inViews : slot < views.length := by
          rw [← viewed.length_eq]
          exact inData
        have viewReads : store.reading? data[slot] = some views[slot] :=
          viewed.get inData inViews
        refine ⟨frame, views, values, viewed, ⟨length.trans same, .inl ⟨slot, passed, ?_⟩⟩, ?_⟩
        · rw [List.getElem?_eq_getElem inViews, ← viewReads, reads]
        · rw [copied, reads]
      · exact launched

/-- What running a script leaves behind. -/
theorem ends_forward
    {script : Script}
    {before : Store α}
    (valid : before.Valid)
    {data : List BufferId}
    {output : BufferId}
    {held : Claim}
    (claimed : before.claim? output = some held) :
    Ends (script.forward data output) before
      (fun _ after => Frame ∅ {output} before after ∧ ∃ views values,
        List.Forall₂ (fun buffer values => before.reading? buffer = some values) data views ∧
        Leaves script views held.length values ∧ after.reading? output = some values)
      (fun _ after => Frame ∅ ∅ before after) := by
  unfold forward
  rw [ends_bind_iff]
  refine ends_checkSupported.mono ?_ ?_
  · rintro _ before rfl
    refine (ends_withLeases (fun _ => ∅) (fun _ => {output})
      (fun _ inner => ∃ views values,
        List.Forall₂ (fun buffer values => before.reading? buffer = some values) data views ∧
        Leaves script views held.length values ∧ inner.reading? output = some values)
      valid ?_).mono ?_ fun _ _ frame => frame
    · intro inside leased
      rw [ends_bind_iff]
      refine (ends_mapM_blockOf leased fun _ member => member).mono ?_ fun _ _ frame => frame
      rintro inputs inside ⟨rfl, pins⟩
      refine (ends_withLease (fun _ => ∅) (fun _ => {output})
        (fun _ inner => ∃ views values,
          List.Forall₂ (fun buffer values => before.reading? buffer = some values) data views ∧
          Leaves script views held.length values ∧ inner.reading? output = some values)
        leased.valid ?_).mono ?_ fun _ _ frame => frame
      · intro middle claim frame onTier claimedMiddle
        have valid := (frame_pin frame.valid : Frame {output} ∅ middle _).valid
        have same : (middle.pin output).reading? = before.reading? := by
          rw [reading?_pin, ← leased.readings]
          funext other
          exact frame.readings other (Set.notMem_empty _) (Set.notMem_empty _)
        have blocks := pins.imp fun _ _ pins =>
          ((pins.frame frame (Set.notMem_empty _)).pin output).contents
        rw [ends_bind_iff]
        refine (ends_blockOf (onAccelerator_pin onTier)).mono ?_ fun _ _ frame => frame
        rintro target _ ⟨rfl, written⟩
        rw [ends_bind_iff]
        refine ends_find ?_ fun _ => Frame.refl valid
        intro found foundClaim _
        have length : found.claim.length = held.length := by
          rw [claim?_pin, if_pos rfl, frame.claims output (Set.notMem_empty _), leased.claims,
            claimed] at foundClaim
          exact (congrArg Claim.length (Option.some.inj foundClaim)).symm
        refine (ends_runBlocks valid foundClaim blocks written).mono ?_ fun _ _ frame => frame
        rintro _ after ⟨written, views, values, viewed, leaves, reads⟩
        rw [same] at viewed
        rw [length] at leaves
        exact ⟨written, fun _ absent => absent.elim, views, values, viewed, leaves, reads⟩
      · rintro _ after ⟨frame, -, inner, released, views, values, viewed, leaves, reads⟩
        refine ⟨frame, fun _ absent => absent.elim, views, values, viewed, leaves, ?_⟩
        rw [released.reading?, reads]
    · rintro _ after ⟨frame, -, inner, released, views, values, viewed, leaves, reads⟩
      refine ⟨frame, views, values, viewed, leaves, ?_⟩
      rw [released.reading?, reads]
  · rintro _ after rfl
    exact Frame.refl valid

end Script

end Elementwise
