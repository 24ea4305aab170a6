import Mathlib.Data.List.Nodup
import Mathlib.Data.List.Pairwise
import Elementwise.Gradient.Accumulation
import Elementwise.Proofs.Gradient.Sweep
import Elementwise.Proofs.Reduction.Tree

/-!
# What is added to gradients

A launch of the sweep writes one column for each target: the old gradient plus
the adjoints where the gradient is as long as the output, and the adjoints
themselves, into a spare buffer, everywhere else.  Each spare buffer is summed
in passes, and the sum is added to the gradient it belongs to.

So each gradient grows by its own adjoints and by nothing else, although the
three lists of buffers that take part are numbered in different ways.
-/

namespace Elementwise

variable {α : Type} [Element α]

namespace Gradient

open Store

variable
    {plan : Plan}
    {inputs : Array (Array α)}
    {coordinate domain fanIn : Nat}
    {source : Operand}
    {store : Store α}

/-! ## Adjoints -/

/-- The adjoint of a record or of a data slot at a coordinate. -/
def adjoint?
    (plan : Plan)
    (inputs : Array (Array α))
    (source : Operand)
    (coordinate : Nat) : Except Fault α := do
  adjointOf (← plan.sweep inputs coordinate (Trace.zeros α plan)) source

/-- The adjoints of a record or of a data slot at all coordinates of an output. -/
structure Adjoints
    (plan : Plan)
    (inputs : Array (Array α))
    (source : Operand)
    (domain : Nat)
    (adjoints : Array α) : Prop where
  size : adjoints.size = domain
  elements : ∀ coordinate value, adjoints[coordinate]? = some value →
    adjoint? plan inputs source coordinate = .ok value

theorem exists_adjoints
    (each : ∀ coordinate, coordinate < domain →
      ∃ value, adjoint? plan inputs source coordinate = .ok value) :
    ∃ adjoints, Adjoints plan inputs source domain adjoints := by
  choose values given using each
  refine ⟨Array.ofFn fun place : Fin domain => values place place.2, Array.size_ofFn, ?_⟩
  intro coordinate value found
  obtain ⟨inside, rfl⟩ := Array.getElem?_eq_some_iff.1 found
  rw [Array.getElem_ofFn]
  exact given coordinate (by simpa using inside)

/-- A row of the kernel holds the contributions of a sweep, whatever the workspace was. -/
theorem kernel_row_eq_ok
    (ordered : plan.Ordered)
    {columns : List (Operand × Option Nat)}
    {workspace trace : Trace α}
    {row : Array α}
    (fits : workspace.Fits plan)
    (ran : (kernel plan columns).row coordinate inputs workspace = .ok (row, trace)) :
    trace.Fits plan ∧
      plan.sweep (inputs.extract 0 plan.dataLength) coordinate (Trace.zeros α plan) = .ok trace ∧
      List.Forall₂
        (fun column value => contribution inputs coordinate trace column.1 column.2 = .ok value)
        columns row.toList := by
  obtain ⟨swept, sweeps, rest⟩ := bind_eq_ok_iff.1 ran
  obtain ⟨values, contributes, same⟩ := bind_eq_ok_iff.1 rest
  cases same
  refine ⟨Plan.fits_of_sweep fits sweeps, ?_, mapM_eq_ok_iff.1 contributes⟩
  rw [Plan.sweep_eq_of_fits ordered (Trace.zeros_fits plan) fits, sweeps]

/-! ## The buffers of a launch -/

/-- The buffer that takes the column of an assignment. -/
def output (assignment : Assignment) : BufferId :=
  assignment.2.getD assignment.1.buffer

/-- The totals of direct columns are found where the columns say. -/
theorem columns_totals
    (before : List BufferId)
    (assignments : List Assignment) :
    List.Forall₂
      (fun assignment column => column.1 = assignment.1.source ∧
        match assignment.2 with
        | some _ => column.2 = none
        | none => ∃ input, column.2 = some input ∧
            (before ++ direct assignments)[input]? = some assignment.1.buffer)
      assignments (columns before.length assignments) := by
  induction assignments generalizing before with
  | nil => exact .nil
  | cons assignment assignments step =>
    obtain ⟨target, spare⟩ := assignment
    cases spare with
    | some spare => exact .cons ⟨rfl, rfl⟩ (step before)
    | none =>
      have later := step (before ++ [target.buffer])
      rw [List.length_append, List.length_singleton, List.append_assoc] at later
      refine .cons ⟨rfl, before.length, rfl, ?_⟩ later
      show (before ++ target.buffer :: direct assignments)[before.length]? = _
      rw [List.getElem?_append_right (Nat.le_refl _), Nat.sub_self]
      rfl

/-- What a launch leaves in a column at a coordinate. -/
theorem exists_contribution
    (ordered : plan.Ordered)
    {data : List BufferId}
    (enough : data.length = plan.dataLength)
    {assignments : List Assignment}
    {column : Nat}
    {assignment : Assignment}
    (found : assignments[column]? = some assignment)
    {rows : Array (Array α)}
    (ran : (kernel plan (columns plan.dataLength assignments)).rows inputs domain = .ok rows)
    (inside : coordinate < domain) :
    ∃ row adjoint, rows[coordinate]? = some row ∧
      adjoint? plan (inputs.extract 0 plan.dataLength) assignment.1.source coordinate =
        .ok adjoint ∧
      match assignment.2 with
      | some _ => row.getD column Arithmetic.zero = adjoint
      | none => ∃ (input : Nat) (total : Array α) (current : α),
          (data ++ direct assignments)[input]? = some assignment.1.buffer ∧
          inputs[input]? = some total ∧ total[coordinate]? = some current ∧
          row.getD column Arithmetic.zero = Arithmetic.add current adjoint := by
  obtain ⟨-, each⟩ := Kernel.rows_eq_ok (·.Fits plan) (Trace.zeros_fits plan)
    (fun _ _ _ _ fits done => (kernel_row_eq_ok ordered fits done).1) ran
  obtain ⟨workspace, trace, row, fits, done, present⟩ := each coordinate inside
  obtain ⟨-, swept, contributions⟩ := kernel_row_eq_ok ordered fits done
  have totals := columns_totals data assignments
  rw [enough] at totals
  obtain ⟨⟨source, total⟩, inColumns, rfl, place⟩ := getElem?_of_forall₂ totals found
  obtain ⟨value, inRow, contributed⟩ := getElem?_of_forall₂ contributions inColumns
  have element : row.getD column Arithmetic.zero = value := by
    rw [Array.getD_eq_getD_getElem?, ← Array.getElem?_toList, inRow, Option.getD_some]
  obtain ⟨adjoint, read, rest⟩ := bind_eq_ok_iff.1 contributed
  refine ⟨row, adjoint, present, bind_eq_ok_iff.2 ⟨trace, swept, read⟩, ?_⟩
  rw [element]
  obtain ⟨target, spare⟩ := assignment
  cases spare with
  | some spare =>
    cases place
    cases rest
    rfl
  | none =>
    obtain ⟨input, rfl, owned⟩ := place
    obtain ⟨values, first, rest⟩ := bind_eq_ok_iff.1 rest
    obtain ⟨current, second, same⟩ := bind_eq_ok_iff.1 rest
    cases same
    exact ⟨input, values, current, owned, elementAt_eq_ok_iff.1 first,
      elementAt_eq_ok_iff.1 second, rfl⟩

/-- What a launch leaves in the buffer of an assignment. -/
def Swept
    (plan : Plan)
    (views : List (Array α))
    (domain : Nat)
    (before after : BufferId → Option (Array α))
    (assignment : Assignment) : Prop :=
  ∃ adjoints, Adjoints plan views.toArray assignment.1.source domain adjoints ∧
    match assignment.2 with
    | some spare => after spare = some adjoints
    | none => ∃ old, before assignment.1.buffer = some old ∧ old.size = domain ∧
        after assignment.1.buffer = some (Array.zipWith Arithmetic.add old adjoints)

/-- A launch of the kernel leaves the adjoints in every column. -/
theorem swept_of_rows
    (ordered : plan.Ordered)
    {data : List BufferId}
    (enough : data.length = plan.dataLength)
    {assignments : List Assignment}
    {column : Nat}
    {assignment : Assignment}
    (found : assignments[column]? = some assignment)
    {views : List (Array α)}
    {rows : Array (Array α)}
    {old : Array α}
    {before after : BufferId → Option (Array α)}
    (viewed : List.Forall₂ (fun buffer values => before buffer = some values)
      (data ++ direct assignments) views)
    (ran : (kernel plan (columns plan.dataLength assignments)).rows views.toArray domain =
      .ok rows)
    (reads : before (output assignment) = some old)
    (size : old.size = domain)
    (written : after (output assignment) = some (Pool.writeColumn rows column old)) :
    Swept plan (views.take data.length) domain before after assignment := by
  have prefixed : views.toArray.extract 0 plan.dataLength =
      (views.take data.length).toArray := by
    rw [enough]
    simp
  have each := fun coordinate (inside : coordinate < domain) =>
    exists_contribution ordered enough found ran inside
  rw [prefixed] at each
  have exist : ∃ adjoints, Adjoints plan (views.take data.length).toArray assignment.1.source
      domain adjoints := by
    refine exists_adjoints fun coordinate inside => ?_
    obtain ⟨row, adjoint, -, read, -⟩ := each coordinate inside
    exact ⟨adjoint, read⟩
  obtain ⟨adjoints, given⟩ := exist
  refine ⟨adjoints, given, ?_⟩
  -- the adjoint of each coordinate is the one in the array
  have same : ∀ coordinate adjoint, coordinate < domain →
      adjoint? plan (views.take data.length).toArray assignment.1.source coordinate =
        .ok adjoint → adjoints[coordinate]? = some adjoint := by
    intro coordinate adjoint inside read
    have held := Array.getElem?_eq_getElem (given.size ▸ inside : coordinate < adjoints.size)
    have again := given.elements coordinate _ held
    rw [read] at again
    rw [held, Except.ok.inj again]
  have length : (Pool.writeColumn rows column old).size = domain :=
    (Pool.size_writeColumn ..).trans size
  have element : ∀ {coordinate : Nat} {row : Array α}, coordinate < domain →
      rows[coordinate]? = some row →
      (Pool.writeColumn rows column old)[coordinate]? =
        some (row.getD column Arithmetic.zero) := fun inside present =>
    Pool.getElem?_writeColumn column present (size ▸ inside)
  obtain ⟨target, spare⟩ := assignment
  cases spare with
  | some spare =>
    refine written.trans (congrArg some (Array.ext_getElem? fun coordinate => ?_))
    by_cases inside : coordinate < domain
    · obtain ⟨row, adjoint, present, read, value⟩ := each coordinate inside
      rw [element inside present, same coordinate adjoint inside read]
      exact congrArg some value
    · rw [Array.getElem?_eq_none (by omega), Array.getElem?_eq_none (by rw [given.size]; omega)]
  | none =>
    refine ⟨old, reads, size, written.trans (congrArg some ?_)⟩
    refine Array.ext_getElem? fun coordinate => ?_
    by_cases inside : coordinate < domain
    · obtain ⟨row, adjoint, present, read, input, total, current, owned, held, now, value⟩ :=
        each coordinate inside
      obtain ⟨values, inViews, readsAgain⟩ := getElem?_of_forall₂ viewed owned
      rw [List.getElem?_toArray, inViews] at held
      cases held
      have equal : before target.buffer = some old := reads
      rw [equal] at readsAgain
      cases readsAgain
      rw [element inside present, Array.getElem?_zipWith, now,
        same coordinate adjoint inside read, value]
    · rw [Array.getElem?_eq_none (by omega), Array.getElem?_eq_none]
      rw [Array.size_zipWith, size, given.size]
      omega

/-- The columns of a launch go to buffers that are leased for it. -/
theorem ends_outputBlocks
    {inside : Store α}
    {data : List BufferId}
    {assignments : List Assignment}
    {failed : Error → Store α → Prop}
    (leased : Leased (data ++ direct assignments ++ assignments.filterMap (·.2)) store inside) :
    Ends (assignments.mapM fun assignment => blockOf (output assignment)) inside
      (fun blocks after => after = inside ∧ List.Forall₂
        (fun buffer block => inside.contents? buffer = some (.device block))
        (assignments.map output) blocks)
      failed := by
  have each : Ends (assignments.mapM fun assignment => blockOf (output assignment)) inside
      (fun blocks after => after = inside ∧ List.Forall₂
        (fun assignment block => inside.contents? (output assignment) = some (.device block))
        assignments blocks) failed := by
    refine ends_mapM assignments fun assignment member =>
      ends_blockOf (leased.onAccelerator (output assignment) ?_)
    obtain ⟨target, spare⟩ := assignment
    cases spare with
    | none =>
      refine List.mem_append_left _ (List.mem_append_right _ ?_)
      exact List.mem_filterMap.2 ⟨(target, none), member, rfl⟩
    | some spare =>
      exact List.mem_append_right _ (List.mem_filterMap.2 ⟨(target, some spare), member, rfl⟩)
  exact each.mono (fun _ _ found => ⟨found.1, List.forall₂_map_left_iff.2 found.2⟩)
    fun _ _ failed => failed

/-- A launch writes the buffers of the assignments and no others. -/
theorem ends_launchSweep
    (valid : store.Valid)
    (ordered : plan.Ordered)
    {data : List BufferId}
    (enough : data.length = plan.dataLength)
    {assignments : List Assignment}
    (distinct : (assignments.map output).Nodup)
    (sizes : ∀ assignment ∈ assignments, ∃ claim,
      store.claim? (output assignment) = some claim ∧ claim.length = domain) :
    Ends (launchSweep plan data domain assignments) store
      (fun _ after => Frame ∅ { buffer | buffer ∈ assignments.map output } store after ∧
        ∃ views, List.Forall₂ (fun buffer values => store.reading? buffer = some values)
            data views ∧
          ∀ assignment ∈ assignments,
            Swept plan views domain store.reading? after.reading? assignment)
      (fun _ after => Frame ∅ ∅ store after) := by
  unfold launchSweep
  dsimp only
  refine (ends_withLeases (fun _ => ∅) (fun _ => { buffer | buffer ∈ assignments.map output })
    (fun _ inner => ∃ views,
      List.Forall₂ (fun buffer values => store.reading? buffer = some values) data views ∧
      ∀ assignment ∈ assignments,
        Swept plan views domain store.reading? inner.reading? assignment)
    valid ?_).mono ?_ fun _ _ frame => frame
  · intro inside leased
    rw [ends_bind_iff]
    refine (ends_mapM_blockOf leased fun _ member => List.mem_append_left _ member).mono ?_
      fun _ _ frame => frame
    rintro blocks inside ⟨rfl, read⟩
    rw [ends_bind_iff]
    refine (ends_outputBlocks leased).mono ?_ fun _ _ frame => frame
    · rintro targets inside ⟨rfl, written⟩
      refine (ends_launch leased.valid (read.imp fun _ _ pins => pins.contents)
        written distinct).mono ?_ fun _ _ frame => frame
      rintro _ after ⟨frame, views, rows, viewed, ran, columns⟩
      rw [leased.readings] at viewed columns
      refine ⟨frame, fun _ absent => absent.elim, views.take data.length, ?_, ?_⟩
      · have first := List.forall₂_take data.length viewed
        rwa [List.take_left] at first
      · intro assignment member
        obtain ⟨column, found⟩ := List.getElem?_of_mem member
        have some : targets.isEmpty = false := by
          obtain ⟨block, present, -⟩ :=
            getElem?_of_forall₂ (List.forall₂_map_left_iff.1 written) found
          cases targets with
          | nil => cases present
          | cons _ _ => rfl
        rw [some] at ran
        obtain ⟨claim, claimed, length⟩ := sizes assignment member
        obtain ⟨old, reads, size⟩ := exists_reading valid claimed
        have place : (assignments.map output)[column]? = Option.some (output assignment) := by
          rw [List.getElem?_map, found, Option.map_some]
        have column := columns column (output assignment) place
        rw [reads, Option.map_some] at column
        exact swept_of_rows ordered enough found viewed ran reads (size.trans length) column
  · rintro _ after ⟨frame, -, inner, released, views, viewed, swept⟩
    rw [← released.reading?] at swept
    exact ⟨frame, views, viewed, swept⟩

/-! ## Sums of adjoints -/

/-- A flat layout holds a list as it is. -/
theorem toList_of_holds_flat
    {length : Nat}
    {lists : Nat → Nat → List α}
    {values : Array α}
    (holds : (AxisLayout.flat length).reduced.Holds lists values) :
    values.toList = lists 0 0 := by
  have size := holds.size
  have entries := holds.entries 0 0 Nat.zero_lt_one Nat.zero_lt_one
  rw [← entries]
  refine List.ext_getElem ?_ fun index inside _ => ?_
  · rw [AxisLayout.length_entries, Array.length_toList, size]
    simp [AxisLayout.reduced, AxisLayout.flat]
  · have within : index < values.size := inside
    simp [AxisLayout.entries, AxisLayout.entry, AxisLayout.reduced, AxisLayout.flat, within]

/-- The sum in passes of the elements of an array. -/
def sums (fanIn : Nat) (values : Array α) : Array α :=
  (treeFold Arithmetic.add (max fanIn Config.minFanIn) values.toList).toArray

/-- A pass over a buffer finds the elements that the buffer reads as. -/
theorem yields_of_reading
    {buffer : BufferId}
    {values : Array α}
    {count : Nat}
    (reads : store.reading? buffer = some values)
    (views : List (Array α))
    (viewed : List.Forall₂ (fun other values => store.reading? other = some values)
      [buffer] views) :
    Source.Yields firstInput views.toArray (fun _ => True) count
      (values.getD · Arithmetic.zero) := by
  cases viewed with
  | cons first rest =>
    cases rest
    rw [reads] at first
    cases first
    exact AxisLayout.yields_firstInput values _

/-- The passes that sum a buffer leave the sum in a buffer of its own. -/
theorem ends_sumPasses
    (valid : store.Valid)
    {buffer : BufferId}
    {values : Array α}
    (reads : store.reading? buffer = some values)
    (size : values.size = domain) :
    Ends
      (withLease buffer .accelerator do
        (AxisLayout.flat domain).treeReduce fanIn Arithmetic.add
          [← blockOf buffer] () firstInput)
      store
      (fun result after => Made (· = sums fanIn values) store after result)
      (fun _ after => Frame ∅ ∅ store after) := by
  refine (ends_withLease (fun result => {result}) (fun _ => ∅)
    (fun result inner => result ≠ buffer ∧
      (∃ length, inner.claim? result = some (.fresh length)) ∧
      ∃ total, inner.reading? result = some total ∧ total = sums fanIn values)
    valid ?_).mono ?_ fun _ _ frame => frame
  · intro middle held frame onTier claimed
    have leased : (middle.pin buffer).claim? buffer = some held.pin := by
      rw [claim?_pin, if_pos rfl, claimed, Option.map_some]
    have still : (middle.pin buffer).reading? buffer = some values := by
      rw [reading?_pin, frame.readings buffer (Set.notMem_empty _) (Set.notMem_empty _), reads]
    rw [ends_bind_iff]
    refine (ends_blockOf (onAccelerator_pin onTier)).mono ?_ fun _ _ failed => failed
    rintro block _ ⟨rfl, stored⟩
    have pins : List.Forall₂ (middle.pin buffer).Pins [buffer] [block] :=
      .cons ⟨stored, held.pin, leased, Nat.succ_pos _⟩ .nil
    refine (AxisLayout.ends_treeReduce (fun _ => True) (frame_pin frame.valid).valid trivial
      pins (yields_of_reading still)).mono ?_ fun _ _ failed => failed
    rintro result after made
    refine ⟨made.frame, ?_, ?_, made.fresh, ?_⟩
    · rintro _ rfl
      exact made.absent
    · rintro rfl
      rw [made.absent] at leased
      cases leased
    · obtain ⟨total, readsTotal, holds⟩ := made.reads
      refine ⟨total, readsTotal, ?_⟩
      have entries : (AxisLayout.flat domain).entries (values.getD · Arithmetic.zero) 0 0 =
          values.toList := by
        refine List.ext_getElem ?_ fun index inside within => ?_
        · rw [AxisLayout.length_entries, Array.length_toList, size]
          rfl
        · have held : index < values.size := within
          simp [AxisLayout.entries, AxisLayout.entry, AxisLayout.flat, held]
      rw [sums, ← entries, ← toList_of_holds_flat holds]
  · rintro result after ⟨frame, absent, inner, released, different, ⟨length, claimed⟩, total,
      reads, same⟩
    refine ⟨absent result rfl, frame, ⟨length, ?_⟩, total, ?_, same⟩
    · exact (released.claims result different).trans claimed
    · rw [released.reading?, reads]

theorem ends_sumUp
    (valid : store.Valid)
    {buffer : BufferId}
    {values : Array α}
    (reads : store.reading? buffer = some values)
    (size : values.size = domain) :
    Ends (sumUp buffer domain fanIn) store
      (fun total after => Frame ∅ ∅ store after ∧ total = sums fanIn values)
      (fun _ after => Frame ∅ ∅ store after) := by
  unfold sumUp
  rw [ends_bind_iff]
  exact (ends_sumPasses valid reads size).mono (fun _ _ made => ends_take made)
    fun _ _ frame => frame

/-- Values with amounts added as far as there are any. -/
def increased (values amounts : Array α) : Array α :=
  values.mapIdx fun index value =>
    match amounts[index]? with
    | some amount => Arithmetic.add value amount
    | none => value

theorem ends_addTo
    (valid : store.Valid)
    (buffer : BufferId)
    (amounts : Array α) :
    Ends (addTo buffer amounts) store
      (fun _ after => Frame ∅ {buffer} store after ∧
        after.reading? buffer = (store.reading? buffer).map (increased · amounts))
      (fun _ after => Frame ∅ ∅ store after) := by
  unfold addTo
  rw [ends_bind_iff]
  refine (ends_update valid _).mono ?_ fun _ _ frame => frame
  rintro _ after ⟨frame, values, reads, -, written⟩
  refine ⟨frame, ?_⟩
  rw [reads]
  exact written

/--
Settling adds the sum in passes of the spare buffer to the gradient, which is left alone
if settling fails.
-/
theorem ends_settle
    (valid : store.Valid)
    {target : Target}
    {spare : BufferId}
    {adjoints : Array α}
    (different : target.buffer ≠ spare)
    (reads : store.reading? spare = some adjoints)
    (size : adjoints.size = domain) :
    Ends (settle domain fanIn (target, some spare)) store
      (fun _ after => Frame ∅ {spare, target.buffer} store after ∧
        after.reading? target.buffer =
          (store.reading? target.buffer).map (increased · (sums fanIn adjoints)))
      (fun _ after => Frame ∅ {spare} store after) := by
  unfold settle
  dsimp only
  rw [ends_bind_iff]
  refine (ends_sumUp valid reads size).mono ?_
    fun _ _ frame => frame.mono (Set.Subset.refl _) (Set.empty_subset _)
  rintro total first ⟨frame, rfl⟩
  rw [ends_bind_iff]
  refine (ends_release frame.valid).mono ?_ fun _ _ released =>
    (frame.trans_empty released).mono (Set.Subset.refl _) (Set.empty_subset _)
  rintro _ second ⟨released, -⟩
  have given := frame.trans_empty released
  refine (ends_addTo given.valid target.buffer _).mono ?_ ?_
  · rintro _ after ⟨added, increases⟩
    refine ⟨(given.trans added).mono ?_ ?_, ?_⟩
    · rw [Set.union_empty]
    · exact fun _ member => member
    · rw [increases, given.readings target.buffer (Set.notMem_empty _) different]
  · intro _ after failed
    refine (given.trans failed).mono ?_ ?_
    · rw [Set.union_empty]
    · rw [Set.union_empty]

/-- All buffers that assignments are about. -/
def buffers (assignments : List Assignment) : List BufferId :=
  assignments.flatMap fun assignment => assignment.1.buffer :: assignment.2.toList

omit [Element α] in
theorem outputs_sublist (assignments : List Assignment) :
    (assignments.map output).Sublist (buffers assignments) := by
  induction assignments with
  | nil => exact .slnil
  | cons assignment assignments step =>
    obtain ⟨target, spare⟩ := assignment
    cases spare with
    | none => exact .cons_cons target.buffer step
    | some spare => exact .cons target.buffer (.cons_cons spare step)

/-- The buffers that settling writes. -/
def settled (assignments : List Assignment) : Set BufferId :=
  { buffer | ∃ target spare, (target, some spare) ∈ assignments ∧
    (buffer = spare ∨ buffer = target.buffer) }

theorem settled_subset (assignments : List Assignment) :
    settled assignments ⊆ { buffer | buffer ∈ buffers assignments } := by
  rintro buffer ⟨target, spare, member, rfl | rfl⟩
  · refine List.mem_flatMap.2 ⟨_, member, ?_⟩
    simp
  · refine List.mem_flatMap.2 ⟨_, member, ?_⟩
    simp

omit [Element α] in
theorem buffers_cons (assignment : Assignment) (assignments : List Assignment) :
    buffers (assignment :: assignments) =
      assignment.1.buffer :: assignment.2.toList ++ buffers assignments :=
  List.flatMap_cons

theorem settled_cons_subset (assignment : Assignment) (assignments : List Assignment) :
    settled assignments ⊆ settled (assignment :: assignments) := by
  rintro buffer ⟨target, spare, member, written⟩
  exact ⟨target, spare, List.mem_cons_of_mem _ member, written⟩

/-- What settling all assignments leaves behind: each gradient got the sum of its own spare
buffer. -/
structure Settles
    (fanIn : Nat)
    (assignments : List Assignment)
    (before after : Store α) : Prop where
  frame : Frame ∅ (settled assignments) before after
  grown : ∀ target spare adjoints, (target, some spare) ∈ assignments →
    before.reading? spare = some adjoints →
    after.reading? target.buffer =
      (before.reading? target.buffer).map (increased · (sums fanIn adjoints))

/-- What is left when settling fails: some gradients got their sums and at least one did not. -/
structure SettlesPart
    (fanIn : Nat)
    (assignments : List Assignment)
    (before after : Store α) : Prop where
  frame : Frame ∅ (settled assignments) before after
  each : ∀ target spare adjoints, (target, some spare) ∈ assignments →
    before.reading? spare = some adjoints →
    after.reading? target.buffer = before.reading? target.buffer ∨
      after.reading? target.buffer =
        (before.reading? target.buffer).map (increased · (sums fanIn adjoints))
  left : ∃ target spare, (target, some spare) ∈ assignments ∧
    after.reading? target.buffer = before.reading? target.buffer

section

variable
    {assignments : List Assignment}
    {first : Target}
    {before after : Store α}

/-- An assignment without a spare buffer has nothing to settle. -/
theorem Settles.direct (settles : Settles fanIn assignments before after) :
    Settles fanIn ((first, none) :: assignments) before after where
  frame := settles.frame.mono (Set.Subset.refl _) (settled_cons_subset _ assignments)
  grown target spare adjoints member :=
    settles.grown target spare adjoints (by simpa using member)

theorem SettlesPart.direct (settles : SettlesPart fanIn assignments before after) :
    SettlesPart fanIn ((first, none) :: assignments) before after where
  frame := settles.frame.mono (Set.Subset.refl _) (settled_cons_subset _ assignments)
  each target spare adjoints member :=
    settles.each target spare adjoints (by simpa using member)
  left := by
    obtain ⟨target, spare, member, same⟩ := settles.left
    exact ⟨target, spare, List.mem_cons_of_mem _ member, same⟩

variable
    {own : BufferId}
    (distinct : (buffers ((first, some own) :: assignments)).Nodup)

include distinct

/-- Settling the first assignment leaves the buffers of the others alone. -/
theorem notMem_pair_of_mem_settled
    {buffer : BufferId}
    (member : buffer ∈ settled assignments) :
    buffer ∉ ({own, first.buffer} : Set BufferId) := by
  obtain ⟨firstOutside, rest⟩ := List.nodup_cons.1 distinct
  obtain ⟨ownOutside, -⟩ := List.nodup_cons.1 rest
  rintro (rfl | rfl)
  · exact ownOutside (settled_subset assignments member)
  · exact firstOutside (List.mem_cons_of_mem _ (settled_subset assignments member))

theorem ne_own : first.buffer ≠ own := fun same =>
  (List.nodup_cons.1 distinct).1 (same ▸ List.mem_cons_self)

/-- If settling the first assignment fails, none of the gradients has changed. -/
theorem settlesPart_of_frame (frame : Frame ∅ {own} before after) :
    SettlesPart fanIn ((first, some own) :: assignments) before after := by
  have untouched : ∀ target spare, (target, some spare) ∈ (first, some own) :: assignments →
      after.reading? target.buffer = before.reading? target.buffer := by
    intro target spare member
    refine frame.readings target.buffer (Set.notMem_empty _) fun same => ?_
    rcases List.mem_cons.1 member with equal | member
    · cases equal
      exact ne_own distinct same
    · exact notMem_pair_of_mem_settled distinct ⟨target, spare, member, .inr rfl⟩ (.inl same)
  refine ⟨frame.mono (Set.Subset.refl _) ?_, ?_, ?_⟩
  · rintro buffer rfl
    exact ⟨first, buffer, List.mem_cons_self, .inl rfl⟩
  · exact fun target spare _ member _ => .inl (untouched target spare member)
  · exact ⟨first, own, List.mem_cons_self, untouched first own List.mem_cons_self⟩

variable
    {middle : Store α}
    {mine : Array α}
    (frame : Frame ∅ {own, first.buffer} before middle)
    (readsMine : before.reading? own = some mine)
    (grownFirst : middle.reading? first.buffer =
      (before.reading? first.buffer).map (increased · (sums fanIn mine)))

include frame

theorem reading?_of_mem_settled
    {buffer : BufferId}
    (member : buffer ∈ settled assignments) :
    middle.reading? buffer = before.reading? buffer :=
  frame.readings buffer (Set.notMem_empty _) (notMem_pair_of_mem_settled distinct member)

theorem frame_settled_cons (second : Frame ∅ (settled assignments) middle after) :
    Frame ∅ (settled ((first, some own) :: assignments)) before after := by
  have head : ({own, first.buffer} : Set BufferId) ⊆
      settled ((first, some own) :: assignments) := by
    rintro buffer (rfl | rfl)
    · exact ⟨first, buffer, List.mem_cons_self, .inl rfl⟩
    · exact ⟨first, own, List.mem_cons_self, .inr rfl⟩
  refine (frame.trans second).mono ?_ (Set.union_subset head (settled_cons_subset _ assignments))
  rw [Set.union_empty]

include readsMine grownFirst

omit frame in
/-- The first gradient keeps what it got. -/
theorem reading?_first
    (second : Frame ∅ (settled assignments) middle after)
    {adjoints : Array α}
    (reads : before.reading? own = some adjoints) :
    after.reading? first.buffer =
      (before.reading? first.buffer).map (increased · (sums fanIn adjoints)) := by
  rw [readsMine] at reads
  cases reads
  rw [second.readings first.buffer (Set.notMem_empty _), grownFirst]
  exact fun inside => notMem_pair_of_mem_settled distinct inside (.inr rfl)

theorem Settles.cons (settles : Settles fanIn assignments middle after) :
    Settles fanIn ((first, some own) :: assignments) before after := by
  refine ⟨frame_settled_cons distinct frame settles.frame, ?_⟩
  intro target spare adjoints member reads
  rcases List.mem_cons.1 member with same | member
  · cases same
    exact reading?_first distinct readsMine grownFirst settles.frame reads
  · have grown := settles.grown target spare adjoints member
    rw [reading?_of_mem_settled distinct frame ⟨target, spare, member, .inr rfl⟩,
      reading?_of_mem_settled distinct frame ⟨target, spare, member, .inl rfl⟩] at grown
    exact grown reads

theorem SettlesPart.cons (settles : SettlesPart fanIn assignments middle after) :
    SettlesPart fanIn ((first, some own) :: assignments) before after := by
  refine ⟨frame_settled_cons distinct frame settles.frame, ?_, ?_⟩
  · intro target spare adjoints member reads
    rcases List.mem_cons.1 member with same | member
    · cases same
      exact .inr (reading?_first distinct readsMine grownFirst settles.frame reads)
    · have each := settles.each target spare adjoints member
      rw [reading?_of_mem_settled distinct frame ⟨target, spare, member, .inr rfl⟩,
        reading?_of_mem_settled distinct frame ⟨target, spare, member, .inl rfl⟩] at each
      exact each reads
  · obtain ⟨target, spare, member, same⟩ := settles.left
    refine ⟨target, spare, List.mem_cons_of_mem _ member, ?_⟩
    rw [same, reading?_of_mem_settled distinct frame ⟨target, spare, member, .inr rfl⟩]

end

/--
Settling all assignments adds to each gradient the sum of its own spare buffer.  If it
fails, some of them got theirs and at least one did not.
-/
theorem ends_settleAll
    (valid : store.Valid)
    {assignments : List Assignment}
    (distinct : (buffers assignments).Nodup)
    (filled : ∀ target spare, (target, some spare) ∈ assignments →
      ∃ adjoints, store.reading? spare = some adjoints ∧ adjoints.size = domain) :
    Ends (assignments.forM (settle domain fanIn)) store
      (fun _ after => Settles fanIn assignments store after)
      (fun _ after => SettlesPart fanIn assignments store after) := by
  induction assignments generalizing store with
  | nil => exact ⟨(Frame.refl valid).mono (Set.Subset.refl _) (Set.empty_subset _), nofun⟩
  | cons assignment assignments step =>
    rw [List.forM, ends_bind_iff]
    have distinctLater : (buffers assignments).Nodup :=
      (List.sublist_append_right _ _).nodup distinct
    have filledLater : ∀ target spare, (target, some spare) ∈ assignments →
        ∃ adjoints, store.reading? spare = some adjoints ∧ adjoints.size = domain :=
      fun target spare member => filled target spare (List.mem_cons_of_mem _ member)
    obtain ⟨first, own⟩ := assignment
    cases own with
    | none =>
      exact (step valid distinctLater filledLater).mono (fun _ _ settles => settles.direct)
        fun _ _ settles => settles.direct
    | some own =>
      obtain ⟨mine, readsMine, size⟩ := filled first own List.mem_cons_self
      refine (ends_settle valid (ne_own distinct) readsMine size).mono ?_
        fun _ _ frame => settlesPart_of_frame distinct frame
      rintro _ middle ⟨frame, grownFirst⟩
      refine (step frame.valid distinctLater fun target spare member => ?_).mono
        (fun _ _ settles => settles.cons distinct frame readsMine grownFirst)
        fun _ _ settles => settles.cons distinct frame readsMine grownFirst
      rw [reading?_of_mem_settled distinct frame ⟨target, spare, member, .inl rfl⟩]
      exact filledLater target spare member

/-! ## The whole pass -/

/-- The spare buffers of assignments. -/
def spares (assignments : List Assignment) : List BufferId :=
  assignments.filterMap (·.2)

omit [Element α] in
theorem perm_buffers (assignments : List Assignment) :
    (buffers assignments).Perm (assignments.map (·.1.buffer) ++ spares assignments) := by
  induction assignments with
  | nil => exact .refl _
  | cons assignment assignments step =>
    obtain ⟨target, spare⟩ := assignment
    cases spare with
    | none => exact step.cons _
    | some spare => exact ((step.cons spare).trans List.perm_middle.symm).cons _

omit [Element α] in
theorem spares_cons (assignment : Assignment) (assignments : List Assignment) :
    spares (assignment :: assignments) = assignment.2.toList ++ spares assignments := by
  obtain ⟨target, spare⟩ := assignment
  cases spare with
  | none => rfl
  | some spare => rfl

omit [Element α] in
theorem mem_spares_iff
    {assignments : List Assignment}
    {own : BufferId} :
    own ∈ spares assignments ↔ ∃ target, (target, some own) ∈ assignments := by
  refine List.mem_filterMap.trans ⟨?_, fun ⟨target, member⟩ => ⟨_, member, rfl⟩⟩
  rintro ⟨⟨target, _⟩, member, rfl⟩
  exact ⟨target, member⟩

/-- Every target is assigned, with a spare buffer if its length is not that of the output. -/
theorem assign_eq
    {sized : List (Target × Nat)}
    {spare : List BufferId}
    (enough : spare.length = (sized.filter (·.2 ≠ domain)).length) :
    (assign domain sized spare).map Prod.fst = sized.map Prod.fst ∧
      spares (assign domain sized spare) = spare ∧
      ∀ assignment ∈ assign domain sized spare, ∃ length, (assignment.1, length) ∈ sized ∧
        match assignment.2 with
        | none => length = domain
        | some _ => length ≠ domain := by
  induction sized generalizing spare with
  | nil =>
    obtain rfl := List.length_eq_zero_iff.1 enough
    exact ⟨rfl, rfl, nofun⟩
  | cons head sized step =>
    obtain ⟨target, length⟩ := head
    rw [assign]
    split
    next direct =>
      rw [List.filter_cons_of_neg (by simpa using direct)] at enough
      obtain ⟨targets, own, each⟩ := step enough
      refine ⟨congrArg (target :: ·) targets, own, fun assignment member => ?_⟩
      rcases List.mem_cons.1 member with rfl | member
      · exact ⟨length, List.mem_cons_self, direct⟩
      · obtain ⟨other, found, holds⟩ := each assignment member
        exact ⟨other, List.mem_cons_of_mem _ found, holds⟩
    next broadcast =>
      rw [List.filter_cons_of_pos (by simpa using broadcast), List.length_cons] at enough
      obtain ⟨first, spare, rfl⟩ := List.exists_cons_of_length_eq_add_one enough
      obtain ⟨targets, own, each⟩ := step (Nat.succ.inj enough)
      refine ⟨congrArg (target :: ·) targets, congrArg (first :: ·) own,
        fun assignment member => ?_⟩
      rcases List.mem_cons.1 member with rfl | member
      · exact ⟨length, List.mem_cons_self, broadcast⟩
      · obtain ⟨other, found, holds⟩ := each assignment member
        exact ⟨other, List.mem_cons_of_mem _ found, holds⟩

/-- Two assignments about one buffer are the same. -/
theorem eq_of_mem_buffers
    {assignments : List Assignment}
    (distinct : (buffers assignments).Nodup)
    {first second : Assignment}
    (one : first ∈ assignments)
    (other : second ∈ assignments)
    {buffer : BufferId}
    (ofFirst : buffer ∈ first.1.buffer :: first.2.toList)
    (ofSecond : buffer ∈ second.1.buffer :: second.2.toList) :
    first = second := by
  by_contra different
  have apart := (List.nodup_flatMap.1 distinct).2
  have symmetric : Std.Symm (Function.onFun List.Disjoint fun assignment : Assignment =>
      assignment.1.buffer :: assignment.2.toList) := ⟨fun _ _ => List.disjoint_symm⟩
  exact apart.forall one other different ofFirst ofSecond

theorem output_mem (assignment : Assignment) :
    output assignment ∈ assignment.1.buffer :: assignment.2.toList := by
  obtain ⟨target, spare⟩ := assignment
  cases spare with
  | none => exact List.mem_cons_self
  | some spare => exact List.mem_cons_of_mem _ (List.mem_singleton.2 rfl)

/-- Settling leaves the gradients alone that took their column directly. -/
theorem direct_notMem_settled
    {assignments : List Assignment}
    (distinct : (buffers assignments).Nodup)
    {target : Target}
    (member : (target, none) ∈ assignments) :
    target.buffer ∉ settled assignments := by
  rintro ⟨other, spare, found, same⟩
  have shared : target.buffer ∈ other.buffer :: [spare] := by
    rcases same with rfl | same
    · exact List.mem_cons_of_mem _ (List.mem_singleton.2 rfl)
    · exact same ▸ List.mem_cons_self
  have equal := eq_of_mem_buffers distinct member found List.mem_cons_self shared
  cases equal

/-- The launch leaves the gradients alone that are settled. -/
theorem broadcast_notMem_outputs
    {assignments : List Assignment}
    (distinct : (buffers assignments).Nodup)
    {target : Target}
    {spare : BufferId}
    (member : (target, some spare) ∈ assignments) :
    target.buffer ∉ assignments.map output := by
  intro among
  obtain ⟨other, found, same⟩ := List.mem_map.1 among
  obtain rfl := eq_of_mem_buffers distinct member found List.mem_cons_self
    (same ▸ output_mem other)
  have own := (List.nodup_flatMap.1 distinct).1 _ member
  exact (List.nodup_cons.1 own).1 (same ▸ List.mem_singleton.2 rfl)

/-- A gradient after the adjoints of an output, or their sum, are added. -/
def grown (fanIn : Nat) (old adjoints : Array α) : Array α :=
  if old.size = adjoints.size then
    Array.zipWith Arithmetic.add old adjoints
  else
    increased old (sums fanIn adjoints)

/--
A gradient as long as an output gets the adjoints added element by element; any other
has a single element, which gets their sum in passes, if there are any.
-/
def Increases (fanIn : Nat) (old adjoints new : Array α) : Prop :=
  (old.size = adjoints.size → new = Array.zipWith Arithmetic.add old adjoints) ∧
  (old.size ≠ adjoints.size →
    ∃ first, old = #[first] ∧ (adjoints.size = 0 → new = #[first]) ∧
      (0 < adjoints.size →
        ∃ total, treeFold Arithmetic.add (max fanIn Config.minFanIn) adjoints.toList = [total] ∧
          new = #[Arithmetic.add first total]))

theorem increases_grown
    {old adjoints : Array α}
    (fits : old.size = adjoints.size ∨ old.size = 1) :
    Increases fanIn old adjoints (grown fanIn old adjoints) := by
  refine ⟨fun same => if_pos same, fun different => ?_⟩
  obtain ⟨first, rfl⟩ := Array.size_eq_one_iff.1 (fits.resolve_left different)
  have summed : grown fanIn #[first] adjoints = increased #[first] (sums fanIn adjoints) :=
    if_neg different
  rw [summed, sums]
  refine ⟨first, rfl, fun none => ?_, fun some => ?_⟩
  · rw [Array.eq_empty_of_size_eq_zero none, treeFold_nil]
    rfl
  · have long : 2 ≤ max fanIn Config.minFanIn := Nat.le_max_right ..
    have filled : 0 < adjoints.toList.length := some
    obtain ⟨total, folded⟩ := exists_treeFold Arithmetic.add long filled
    refine ⟨total, folded, ?_⟩
    rw [folded]
    rfl

/-- Each target is changed in a given way by its own adjoints on what the data read as. -/
def Changes
    (changed : Array α → Array α → Array α → Prop)
    (plan : Plan)
    (data : List BufferId)
    (targets : List Target)
    (domain : Nat)
    (before after : BufferId → Option (Array α)) : Prop :=
  ∃ views, List.Forall₂ (fun buffer values => before buffer = some values) data views ∧
    ∀ target ∈ targets, ∃ old adjoints new, before target.buffer = some old ∧
      Adjoints plan views.toArray target.source domain adjoints ∧
      after target.buffer = some new ∧ changed old adjoints new

/-- A gradient grew, or was left out because it takes no column directly. -/
def GrownOrLeft (domain fanIn : Nat) (old adjoints new : Array α) : Prop :=
  new = grown fanIn old adjoints ∨ old.size ≠ domain ∧ new = old

/--
What is left of a pass that failed.  Either no target was changed, or those that take
their column directly grew, and of the others at least one was left out.
-/
def Interrupted
    (plan : Plan)
    (data : List BufferId)
    (targets : List Target)
    (domain fanIn : Nat)
    (before after : BufferId → Option (Array α)) : Prop :=
  (∀ target ∈ targets, after target.buffer = before target.buffer) ∨
    Changes (GrownOrLeft domain fanIn) plan data targets domain before after ∧
      ∃ target ∈ targets, ∃ old, before target.buffer = some old ∧ old.size ≠ domain ∧
        after target.buffer = some old

section

variable
    {changed : Array α → Array α → Array α → Prop}
    {plan : Plan}
    {data : List BufferId}
    {targets : List Target}
    {before after first second : BufferId → Option (Array α)}
    (sameData : ∀ buffer ∈ data, first buffer = before buffer)
    (sameBefore : ∀ target ∈ targets, first target.buffer = before target.buffer)
    (sameAfter : ∀ target ∈ targets, second target.buffer = after target.buffer)

include sameData sameBefore sameAfter

theorem Changes.congr (changes : Changes changed plan data targets domain before after) :
    Changes changed plan data targets domain first second := by
  obtain ⟨views, viewed, each⟩ := changes
  refine ⟨views, forall₂_of_mem viewed fun buffer member values reads => ?_,
    fun target member => ?_⟩
  · rw [sameData buffer member, reads]
  · rw [sameBefore target member, sameAfter target member]
    exact each target member

theorem Interrupted.congr (interrupted : Interrupted plan data targets domain fanIn before after) :
    Interrupted plan data targets domain fanIn first second := by
  refine interrupted.imp (fun untouched target member => ?_) fun ⟨changes, left⟩ =>
    ⟨changes.congr sameData sameBefore sameAfter, ?_⟩
  · rw [sameBefore target member, sameAfter target member, untouched target member]
  · obtain ⟨target, member, left⟩ := left
    refine ⟨target, member, ?_⟩
    rw [sameBefore target member, sameAfter target member]
    exact left

end

omit [Element α] in
/-- The buffer that takes a column is as long as the output. -/
theorem claim?_output
    {assignments : List Assignment}
    (lengths : ∀ target spare, (target, spare) ∈ assignments → ∃ claim,
      store.claim? target.buffer = some claim ∧
        match spare with
        | none => claim.length = domain
        | some own => claim.length ≠ domain ∧ store.claim? own = some (.fresh domain))
    (assignment : Assignment)
    (member : assignment ∈ assignments) :
    ∃ claim, store.claim? (output assignment) = some claim ∧ claim.length = domain := by
  obtain ⟨target, spare⟩ := assignment
  obtain ⟨claim, claimed, fits⟩ := lengths target spare member
  cases spare with
  | none => exact ⟨claim, claimed, fits⟩
  | some own => exact ⟨.fresh domain, fits.2, rfl⟩

/-- The launch and the settling together, once all targets are assigned. -/
theorem ends_assigned
    (valid : store.Valid)
    (ordered : plan.Ordered)
    {data : List BufferId}
    (enough : data.length = plan.dataLength)
    {assignments : List Assignment}
    (distinct : (buffers assignments).Nodup)
    (lengths : ∀ target spare, (target, spare) ∈ assignments → ∃ claim,
      store.claim? target.buffer = some claim ∧
        match spare with
        | none => claim.length = domain
        | some own => claim.length ≠ domain ∧ store.claim? own = some (.fresh domain)) :
    Ends
      (do
        launchSweep plan data domain assignments
        assignments.forM (settle domain fanIn))
      store
      (fun _ after => Frame ∅ { buffer | buffer ∈ buffers assignments } store after ∧
        Changes (fun old adjoints new => new = grown fanIn old adjoints) plan data
          (assignments.map Prod.fst) domain store.reading? after.reading?)
      (fun _ after => Frame ∅ { buffer | buffer ∈ buffers assignments } store after ∧
        Interrupted plan data (assignments.map Prod.fst) domain fanIn store.reading?
          after.reading?) := by
  have outputs : { buffer | buffer ∈ assignments.map output } ⊆
      { buffer | buffer ∈ buffers assignments } :=
    fun _ member => (outputs_sublist assignments).subset member
  rw [ends_bind_iff]
  refine (ends_launchSweep valid ordered enough ((outputs_sublist assignments).nodup distinct)
    (claim?_output lengths)).mono ?_ fun _ _ frame =>
      ⟨frame.mono (Set.Subset.refl _) (Set.empty_subset _),
      .inl fun _ _ => frame.readings _ (Set.notMem_empty _) (Set.notMem_empty _)⟩
  rintro _ middle ⟨frame, views, viewed, swept⟩
  have together : ∀ {after : Store α}, Frame ∅ (settled assignments) middle after →
      Frame ∅ { buffer | buffer ∈ buffers assignments } store after := by
    intro after second
    refine (frame.trans second).mono ?_ (Set.union_subset outputs (settled_subset assignments))
    rw [Set.union_empty]
  -- the launch settles the gradients that take their column directly for good
  have direct : ∀ {after : Store α}, Frame ∅ (settled assignments) middle after →
      ∀ target, (target, none) ∈ assignments → ∃ old adjoints,
        store.reading? target.buffer = some old ∧
        Adjoints plan views.toArray target.source domain adjoints ∧
        after.reading? target.buffer = some (grown fanIn old adjoints) := by
    intro after second target member
    obtain ⟨adjoints, given, old, reads, size, becomes⟩ := swept (target, none) member
    refine ⟨old, adjoints, reads, given, ?_⟩
    rw [second.readings target.buffer (Set.notMem_empty _)
      (direct_notMem_settled distinct member), becomes, grown,
      if_pos (size.trans given.size.symm)]
  have broadcast : ∀ target own, (target, some own) ∈ assignments → ∃ old adjoints,
      store.reading? target.buffer = some old ∧
      Adjoints plan views.toArray target.source domain adjoints ∧
      middle.reading? target.buffer = some old ∧ middle.reading? own = some adjoints ∧
      old.size ≠ domain ∧ grown fanIn old adjoints = increased old (sums fanIn adjoints) := by
    intro target own member
    obtain ⟨claim, claimed, different, -⟩ := lengths target (some own) member
    obtain ⟨adjoints, given, written⟩ := swept (target, some own) member
    obtain ⟨old, reads, size⟩ := exists_reading valid claimed
    rw [← size] at different
    refine ⟨old, adjoints, reads, given, ?_, written, different, ?_⟩
    · rw [frame.readings target.buffer (Set.notMem_empty _)
        (broadcast_notMem_outputs distinct member), reads]
    · rw [grown, if_neg (given.size.symm ▸ different)]
  refine (ends_settleAll frame.valid distinct fun target spare member => ?_).mono ?_ ?_
  · obtain ⟨_, adjoints, -, given, -, reads, -⟩ := broadcast target spare member
    exact ⟨adjoints, reads, given.size⟩
  · rintro _ after ⟨second, increases⟩
    refine ⟨together second, views, viewed, fun target among => ?_⟩
    obtain ⟨⟨target, spare⟩, member, rfl⟩ := List.mem_map.1 among
    cases spare with
    | none =>
      obtain ⟨old, adjoints, reads, given, becomes⟩ := direct second target member
      exact ⟨old, adjoints, _, reads, given, becomes, rfl⟩
    | some own =>
      obtain ⟨old, adjoints, reads, given, still, written, -, equal⟩ := broadcast target own member
      refine ⟨old, adjoints, _, reads, given, ?_, equal.symm⟩
      rw [increases target own adjoints member written, still, Option.map_some]
  · rintro _ after ⟨second, each, target, own, member, same⟩
    refine ⟨together second, .inr ⟨⟨views, viewed, fun target among => ?_⟩, ?_⟩⟩
    · obtain ⟨⟨target, spare⟩, member, rfl⟩ := List.mem_map.1 among
      cases spare with
      | none =>
        obtain ⟨old, adjoints, reads, given, becomes⟩ := direct second target member
        exact ⟨old, adjoints, _, reads, given, becomes, .inl rfl⟩
      | some own =>
        obtain ⟨old, adjoints, reads, given, still, written, different, equal⟩ :=
          broadcast target own member
        rcases each target own adjoints member written with kept | grew
        · exact ⟨old, adjoints, old, reads, given, kept.trans still, .inr ⟨different, rfl⟩⟩
        · refine ⟨old, adjoints, _, reads, given, ?_, .inl equal.symm⟩
          rw [grew, still, Option.map_some]
    · obtain ⟨old, -, reads, -, still, -, different, -⟩ := broadcast target own member
      exact ⟨target, List.mem_map_of_mem member, old, reads, different, same.trans still⟩

/-- The targets are assigned, and the spare buffers for them have just been made. -/
structure Assigns
    (before middle : Store α)
    (targets : List Target)
    (domain : Nat)
    (assignments : List Assignment) : Prop where
  targets : assignments.map Prod.fst = targets
  distinct : (buffers assignments).Nodup
  fresh : ∀ own ∈ spares assignments, before.claim? own = none
  frame : Frame { buffer | buffer ∈ spares assignments } ∅ before middle
  lengths : ∀ target spare, (target, spare) ∈ assignments → ∃ claim,
    middle.claim? target.buffer = some claim ∧
      match spare with
      | none => claim.length = domain
      | some own => claim.length ≠ domain ∧ middle.claim? own = some (.fresh domain)

namespace Assigns

variable
    {middle : Store α}
    {targets : List Target}
    {assignments : List Assignment}
    (assigns : Assigns store middle targets domain assignments)

include assigns

theorem mem_targets
    {assignment : Assignment}
    (member : assignment ∈ assignments) :
    assignment.1 ∈ targets :=
  assigns.targets ▸ List.mem_map_of_mem member

theorem length_eq : assignments.length = targets.length := by
  rw [← assigns.targets, List.length_map]

theorem perm_buffers :
    (buffers assignments).Perm (targets.map (·.buffer) ++ spares assignments) := by
  rw [← assigns.targets, List.map_map]
  exact Gradient.perm_buffers assignments

theorem target_notMem_spares
    {target : Target}
    (member : target ∈ targets) :
    target.buffer ∉ spares assignments := by
  have distinct := assigns.perm_buffers.nodup_iff.1 assigns.distinct
  exact (List.nodup_append'.1 distinct).2.2 (List.mem_map_of_mem member)

/-- The buffers that there were are not among the spare ones. -/
theorem notMem_spares
    {buffer : BufferId}
    (live : store.claim? buffer ≠ none) :
    buffer ∉ spares assignments :=
  fun own => live (assigns.fresh buffer own)

theorem reading?_eq
    {buffer : BufferId}
    (old : buffer ∉ spares assignments) :
    middle.reading? buffer = store.reading? buffer :=
  assigns.frame.readings buffer old (Set.notMem_empty _)

theorem claim?_spare
    {own : BufferId}
    (member : own ∈ spares assignments) :
    middle.claim? own = some (.fresh domain) := by
  obtain ⟨target, inside⟩ := mem_spares_iff.1 member
  obtain ⟨-, -, -, fresh⟩ := assigns.lengths target (some own) inside
  exact fresh

end Assigns

/-- The targets with the lengths of their gradients. -/
structure Measures
    (store : Store α)
    (targets : List Target)
    (sized : List (Target × Nat)) : Prop where
  targets : sized.map Prod.fst = targets
  claims : ∀ target length, (target, length) ∈ sized → ∃ claim,
    store.claim? target.buffer = some claim ∧ claim.length = length

omit [Element α] in
/-- The gradients are measured first, which fails only if one of them is missing. -/
theorem ends_measures
    {failed : Error → Store α → Prop}
    (targets : List Target)
    (missing : ∀ target ∈ targets, store.claim? target.buffer = none →
      ∀ reason, failed reason store) :
    Ends (targets.mapM fun target => do return (target, (← Store.find target.buffer).length)) store
      (fun sized after => after = store ∧ Measures store targets sized) failed := by
  have found : Ends
      (targets.mapM fun target => do return (target, (← Store.find target.buffer).length)) store
      (fun sized after => after = store ∧ List.Forall₂
        (fun target (entry : Target × Nat) => entry.1 = target ∧ ∃ claim,
          store.claim? target.buffer = some claim ∧ claim.length = entry.2) targets sized)
      failed := by
    refine ends_mapM targets fun target member => ?_
    rw [ends_bind_iff]
    exact ends_find (fun buffer claimed _ => ⟨rfl, rfl, buffer.claim, claimed, rfl⟩)
      fun absent => missing target member absent _
  refine found.mono ?_ fun _ _ failed => failed
  rintro sized store ⟨rfl, lengths⟩
  refine ⟨rfl, ?_, fun target length member => ?_⟩
  · clear found missing
    induction lengths with
    | nil => rfl
    | cons first _ step => rw [List.map_cons, first.1, step]
  · obtain ⟨other, -, rfl, holds⟩ := exists_of_forall₂ lengths.flip _ member
    exact holds

namespace Measures

variable
    {targets : List Target}
    {sized : List (Target × Nat)}
    (measures : Measures store targets sized)

include measures

omit [Element α] in
theorem live
    {target : Target}
    (member : target ∈ targets) :
    store.claim? target.buffer ≠ none := by
  rw [← measures.targets] at member
  obtain ⟨⟨target, length⟩, among, rfl⟩ := List.mem_map.1 member
  obtain ⟨claim, claimed, -⟩ := measures.claims target length among
  rw [claimed]
  exact nofun

/-- With a new buffer for each gradient of another length, all targets can be assigned. -/
theorem assigns
    {middle : Store α}
    {spare : List BufferId}
    (distinct : (targets.map (·.buffer)).Nodup)
    (distinctSpare : spare.Nodup)
    (absent : ∀ buffer ∈ spare, store.claim? buffer = none)
    (frame : Frame { buffer | buffer ∈ spare } ∅ store middle)
    (fresh : List.Forall₂ (fun buffer length => middle.claim? buffer = some (.fresh length)) spare
      ((sized.filter (·.2 ≠ domain)).map fun _ => domain)) :
    Assigns store middle targets domain (assign domain sized spare) ∧
      spares (assign domain sized spare) = spare := by
  have count : spare.length = (sized.filter (·.2 ≠ domain)).length := by
    rw [fresh.length_eq, List.length_map]
  obtain ⟨assigned, own, each⟩ := assign_eq count
  rw [measures.targets] at assigned
  have perm := perm_buffers (assign domain sized spare)
  have sameBuffers : (assign domain sized spare).map (·.1.buffer) = targets.map (·.buffer) := by
    rw [← assigned, List.map_map]
    rfl
  rw [sameBuffers, own] at perm
  have fromBefore : ∀ target ∈ targets, target.buffer ∉ spare :=
    fun target among member => measures.live among (absent _ member)
  refine ⟨⟨assigned, ?_, own.symm ▸ absent, own.symm ▸ frame, fun target spared member => ?_⟩, own⟩
  · refine perm.nodup_iff.2 (List.nodup_append'.2 ⟨distinct, distinctSpare, ?_⟩)
    intro buffer among member
    obtain ⟨target, inside, rfl⟩ := List.mem_map.1 among
    exact fromBefore target inside member
  · obtain ⟨length, among, fits⟩ := each (target, spared) member
    obtain ⟨claim, claimed, rfl⟩ := measures.claims target length among
    have inside : target ∈ targets := assigned ▸ List.mem_map_of_mem member
    refine ⟨claim, (frame.claims _ (fromBefore target inside)).trans claimed, ?_⟩
    cases spared with
    | none => exact fits
    | some spared =>
      have isSpare : spared ∈ spare := own ▸ mem_spares_iff.2 ⟨target, member⟩
      obtain ⟨length, among, freshOwn⟩ := exists_of_forall₂ fresh spared isSpare
      obtain ⟨-, -, rfl⟩ := List.mem_map.1 among
      exact ⟨fits, freshOwn⟩

end Measures

/-- A pass does what is done once its targets are assigned, and leaves no spare buffer behind. -/
theorem ends_addAdjoints_of_assigned
    (holds : Store α → Prop)
    (kept : ∀ length, Preserves holds (allocate length : Action α BufferId))
    (done : (BufferId → Option (Array α)) → Prop)
    (failed : Error → (BufferId → Option (Array α)) → Prop)
    (valid : store.Valid)
    (held : holds store)
    {data : List BufferId}
    {targets : List Target}
    (distinct : (targets.map (·.buffer)).Nodup)
    (stable : (∀ target ∈ targets, store.claim? target.buffer ≠ none) → ∀ first second,
      (∀ other, store.claim? other ≠ none → second other = first other) →
      (done first → done second) ∧ ∀ reason, failed reason first → failed reason second)
    (missing : ∀ target ∈ targets, store.claim? target.buffer = none →
      ∀ reason, failed reason store.reading?)
    (run : ∀ assignments middle, Assigns store middle targets domain assignments → holds middle →
      Ends
        (do
          launchSweep plan data domain assignments
          assignments.forM (settle domain fanIn))
        middle
        (fun _ after => Frame ∅ { buffer | buffer ∈ buffers assignments } middle after ∧
          done after.reading?)
        (fun reason after => Frame ∅ { buffer | buffer ∈ buffers assignments } middle after ∧
          failed reason after.reading?)) :
    Ends (addAdjoints plan data targets domain fanIn) store
      (fun _ after => Frame ∅ { buffer | buffer ∈ targets.map (·.buffer) } store after ∧
        done after.reading?)
      (fun reason after => Frame ∅ { buffer | buffer ∈ targets.map (·.buffer) } store after ∧
        failed reason after.reading?) := by
  unfold addAdjoints
  rw [ends_bind_iff]
  refine (ends_measures targets fun target member absent reason =>
    ⟨(Frame.refl valid).mono (Set.Subset.refl _) (Set.empty_subset _),
      missing target member absent reason⟩).mono ?_ fun _ _ failed => failed
  rintro sized store ⟨rfl, measures⟩
  dsimp only
  refine ends_withBuffers kept (fun _ => done) failed valid held
    (fun first second same => ⟨fun _ => (stable (fun _ => measures.live) first second same).1,
      (stable (fun _ => measures.live) first second same).2⟩) ?_
  intro spare middle distinctSpare absent frame fresh heldInside
  obtain ⟨assigns, own⟩ := measures.assigns distinct distinctSpare absent frame fresh
  have sameSet : { buffer | buffer ∈ buffers (assign domain sized spare) } =
      { buffer | buffer ∈ targets.map (·.buffer) } ∪ { buffer | buffer ∈ spare } := by
    ext buffer
    rw [Set.mem_ofPred_eq, assigns.perm_buffers.mem_iff, List.mem_append, own]
    rfl
  rw [← sameSet]
  exact run _ middle assigns heldInside

/--
Each target grows by its own adjoints, and nothing else changes.  A pass that fails may be
interrupted between two targets.
-/
theorem ends_addAdjoints
    (valid : store.Valid)
    (ordered : plan.Ordered)
    {data : List BufferId}
    (enough : data.length = plan.dataLength)
    (live : ∀ buffer ∈ data, store.claim? buffer ≠ none)
    {targets : List Target}
    (distinct : (targets.map (·.buffer)).Nodup) :
    Ends (addAdjoints plan data targets domain fanIn) store
      (fun _ after => Frame ∅ { buffer | buffer ∈ targets.map (·.buffer) } store after ∧
        Changes (fun old adjoints new => new = grown fanIn old adjoints) plan data targets domain
          store.reading? after.reading?)
      (fun _ after => Frame ∅ { buffer | buffer ∈ targets.map (·.buffer) } store after ∧
        Interrupted plan data targets domain fanIn store.reading? after.reading?) := by
  refine ends_addAdjoints_of_assigned (fun _ => True) (fun _ => .modifyGet fun _ held => held) _
    (fun _ => Interrupted plan data targets domain fanIn store.reading?) valid trivial distinct
    ?_ ?_ ?_
  · intro stays first second same
    have sameAfter : ∀ target ∈ targets, second target.buffer = first target.buffer :=
      fun target member => same _ (stays target member)
    exact ⟨fun changes => changes.congr (fun _ _ => rfl) (fun _ _ => rfl) sameAfter,
      fun _ interrupted => interrupted.congr (fun _ _ => rfl) (fun _ _ => rfl) sameAfter⟩
  · exact fun _ _ _ _ => .inl fun _ _ => rfl
  · intro assignments middle assigns _
    have sameData : ∀ buffer ∈ data, store.reading? buffer = middle.reading? buffer :=
      fun buffer member => (assigns.reading?_eq (assigns.notMem_spares (live buffer member))).symm
    have sameBefore : ∀ target ∈ targets,
        store.reading? target.buffer = middle.reading? target.buffer :=
      fun target member => (assigns.reading?_eq (assigns.target_notMem_spares member)).symm
    refine (ends_assigned assigns.frame.valid ordered enough assigns.distinct
      assigns.lengths).mono ?_ ?_
    · rintro _ after ⟨written, changes⟩
      rw [assigns.targets] at changes
      exact ⟨written, changes.congr sameData sameBefore fun _ _ => rfl⟩
    · rintro _ after ⟨written, interrupted⟩
      rw [assigns.targets] at interrupted
      exact ⟨written, interrupted.congr sameData sameBefore fun _ _ => rfl⟩

end Gradient

end Elementwise
