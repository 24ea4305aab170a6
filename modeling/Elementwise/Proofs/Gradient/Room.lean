import Elementwise.Proofs.Gradient.Accumulation
import Elementwise.Proofs.Reduction.Room

/-!
# How much room a backward pass needs

A pass leases its data and one buffer as long as the output for each target
at once, so its launch runs just if these fit.  Each sum that follows needs the
column that it sums and, twice, the results of its first pass, which are at
most half as many.  Where there is something to sum, the launch has needed
more than that, so nothing is refused after it.
-/

namespace Elementwise.Gradient

open Store

variable
    {α : Type}
    [Element α]
    {make : Make}
    {quota : Quota}
    {plan : Plan}
    {data : List BufferId}
    {targets : List Target}
    {domain fanIn : Nat}

/-! ## Leases given back -/

theorem within_launchSweep
    {assignments : List Assignment} :
    Preserves (Within make quota)
      (launchSweep plan data domain assignments : Store.Action α Unit) :=
  within_withLeases _ fun _ =>
    .bind (.mapM _ fun _ => preserves_blockOf) fun _ =>
      .bind (.mapM _ fun _ => preserves_blockOf) fun _ => within_launch

theorem within_sumUp
    {buffer : BufferId} :
    Preserves (Within make quota) (sumUp buffer domain fanIn : Store.Action α (Array α)) :=
  .bind
    (within_withLease fun _ => .bind preserves_blockOf fun _ => AxisLayout.within_treeReduce)
    fun _ => within_take

theorem within_addTo
    {buffer : BufferId}
    {amounts : Array α} :
    Preserves (Within make quota) (addTo buffer amounts : Store.Action α Unit) :=
  .bind (within_update _) fun _ => .pure _

theorem within_settle
    {assignment : Assignment} :
    Preserves (Within make quota) (settle domain fanIn assignment : Store.Action α Unit) := by
  obtain ⟨target, spare⟩ := assignment
  cases spare with
  | none => exact .pure _
  | some spare =>
    exact .bind within_sumUp fun _ => .bind within_release fun _ => within_addTo

theorem within_addAdjoints :
    Preserves (Within make quota)
      (addAdjoints plan data targets domain fanIn : Store.Action α Unit) :=
  .bind (.mapM targets fun _ => .bind preserves_find fun _ => .pure _) fun _ =>
    within_withBuffers _ fun _ =>
      .bind within_launchSweep fun _ => .forM _ fun _ => within_settle

/-! ## Room for the launch -/

variable {store : Store α}

/-- A launch leases its data and the buffers of its columns. -/
theorem perm_outputs (assignments : List Assignment) :
    (direct assignments ++ assignments.filterMap (·.2)).Perm (assignments.map output) := by
  induction assignments with
  | nil => exact .refl _
  | cons assignment assignments step =>
    obtain ⟨target, spare⟩ := assignment
    cases spare with
    | none => exact step.cons _
    | some spare => exact List.perm_middle.trans (step.cons _)

/-- Every row can be computed if every adjoint has a place and all inputs can be read. -/
theorem kernel_rows_isOk
    (valid : store.Valid)
    (ordered : plan.Ordered)
    (enough : data.length = plan.dataLength)
    {assignments : List Assignment}
    (placed : ∀ assignment ∈ assignments,
      assignment.1.source.Before plan.dataLength plan.length)
    (lengths : ∀ target, (target, none) ∈ assignments → store.lengthOf target.buffer = domain)
    {views : List (Array α)}
    (viewed : List.Forall₂ (fun buffer values => store.reading? buffer = some values)
      (data ++ direct assignments) views)
    (readable : ∀ coordinate < domain,
      Readable (views.take data.length).toArray plan.dataLength coordinate) :
    ∃ rows, (kernel plan (columns plan.dataLength assignments)).rows views.toArray domain =
      .ok rows := by
  have prefixed : views.toArray.extract 0 plan.dataLength =
      (views.take data.length).toArray := by
    rw [enough]
    simp
  have totals := columns_totals data assignments
  rw [enough] at totals
  refine Kernel.rows_isOk (·.Fits plan) (Trace.zeros_fits plan)
    fun coordinate inside workspace fits => ?_
  obtain ⟨trace, swept⟩ := Plan.sweep_isOk ordered (readable coordinate inside) fits
  have fitsAfter := Plan.fits_of_sweep fits swept
  have contributes : ∀ column ∈ columns plan.dataLength assignments,
      ∃ value, contribution views.toArray coordinate trace column.1 column.2 = .ok value := by
    intro column member
    obtain ⟨assignment, among, source, place⟩ := exists_of_forall₂ totals.flip column member
    have adjoint : ∃ adjoint, adjointOf trace column.1 = .ok adjoint := by
      have before := placed assignment among
      rw [← source] at before
      cases operand : column.1 with
      | record index =>
        rw [operand] at before
        have present : index < trace.adjoints.size := fitsAfter.adjoints ▸ before
        exact ⟨_, elementAt_eq_ok_iff.2 (Array.getElem?_eq_getElem present)⟩
      | data index =>
        rw [operand] at before
        have present : index < trace.dataAdjoints.size := fitsAfter.dataAdjoints ▸ before
        exact ⟨_, elementAt_eq_ok_iff.2 (Array.getElem?_eq_getElem present)⟩
    obtain ⟨adjoint, read⟩ := adjoint
    obtain ⟨target, spare⟩ := assignment
    cases spare with
    | some spare =>
      rw [show column.2 = none from place]
      exact ⟨adjoint, bind_eq_ok_iff.2 ⟨adjoint, read, rfl⟩⟩
    | none =>
      obtain ⟨input, total, owned⟩ := place
      obtain ⟨values, found, reads⟩ := getElem?_of_forall₂ viewed owned
      have size := size_of_reading valid reads
      have present : coordinate < values.size := by
        rw [size, lengths target among]
        exact inside
      rw [total]
      exact ⟨Arithmetic.add values[coordinate] adjoint, bind_eq_ok_iff.2 ⟨adjoint, read,
        bind_eq_ok_iff.2 ⟨values, elementAt_eq_ok_iff.2 (by simpa using found),
          bind_eq_ok_iff.2 ⟨_, elementAt_eq_ok_iff.2 (Array.getElem?_eq_getElem present),
            rfl⟩⟩⟩⟩
  obtain ⟨row, computed⟩ := mapM_isOk contributes
  exact ⟨row.toArray, trace,
    bind_eq_ok_iff.2 ⟨trace, by rw [prefixed, swept], bind_eq_ok_iff.2 ⟨row, computed, rfl⟩⟩,
    fitsAfter⟩

omit [Element α] in
theorem sum_outputs
    {assignments : List Assignment}
    (lengths : ∀ assignment ∈ assignments, store.lengthOf (output assignment) = domain) :
    store.extent (assignments.map output) = assignments.length * domain := by
  induction assignments with
  | nil => exact (Nat.zero_mul _).symm
  | cons assignment assignments step =>
    have later := step fun other member => lengths other (List.mem_cons_of_mem _ member)
    rw [List.map_cons, extent, List.map_cons, List.sum_cons, lengths _ List.mem_cons_self,
      List.length_cons, Nat.succ_mul, Nat.add_comm]
    exact congrArg (· + domain) later

/-- The launch runs just if the data and one column for each target fit. -/
theorem ends_launchSweep_full
    (steady : make.Steady)
    (within : store.Within make (quotaOf []))
    (ordered : plan.Ordered)
    (enough : data.length = plan.dataLength)
    {assignments : List Assignment}
    (placed : ∀ assignment ∈ assignments,
      assignment.1.source.Before plan.dataLength plan.length)
    (distinct : (data ++ assignments.map output).Nodup)
    (free : ∀ buffer ∈ data ++ assignments.map output, store.Free buffer)
    (lengths : ∀ assignment ∈ assignments, store.lengthOf (output assignment) = domain)
    (readable : ∀ views,
      List.Forall₂ (fun buffer values => store.reading? buffer = some values) data views →
      ∀ coordinate < domain, Readable views.toArray plan.dataLength coordinate) :
    Ends (launchSweep plan data domain assignments) store
      (fun _ _ => store.extent data + assignments.length * domain ≤ make.capacity)
      (fun reason _ =>
        Full make.capacity (store.extent data + assignments.length * domain) reason) := by
  have perm : (data ++ direct assignments ++ assignments.filterMap (·.2)).Perm
      (data ++ assignments.map output) := by
    rw [List.append_assoc]
    exact (perm_outputs assignments).append_left data
  have total : store.extent (data ++ direct assignments ++ assignments.filterMap (·.2)) =
      store.extent data + assignments.length * domain := by
    rw [extent, (perm.map store.lengthOf).sum_eq, List.map_append, List.sum_append,
      ← sum_outputs lengths]
    rfl
  have load := loadOf_leasing store (data ++ direct assignments ++ assignments.filterMap (·.2)) []
  rw [total, show loadOf [] = 0 from rfl, Nat.add_zero] at load
  unfold launchSweep
  dsimp only
  refine ends_withLeases_full steady within (perm.nodup_iff.2 distinct)
    (fun buffer member => free buffer (perm.mem_iff.1 member))
    (fun reason full => load ▸ full) fun inside leased booked => ?_
  have fits : store.extent data + assignments.length * domain ≤ make.capacity := by
    have there := booked.extent_le_capacity (perm.nodup_iff.2 distinct) leased.onAccelerator
    rwa [extent, funext leased.lengthOf, ← extent, total] at there
  rw [ends_bind_iff]
  refine (ends_mapM_blockOf leased fun _ member => List.mem_append_left _ member).mono ?_
    fun _ _ never => never
  rintro blocks inside ⟨rfl, read⟩
  rw [ends_bind_iff]
  refine (ends_outputBlocks leased).mono ?_ fun _ _ full => full
  rintro targets inside ⟨rfl, written⟩
  refine (ends_launch_of_steady steady booked.accounted (read.imp fun _ _ pins => pins.contents)
    written ?_ ?_).mono (fun _ _ _ => fits) fun _ _ never => never
  · intro target member
    obtain ⟨assignment, among, rfl⟩ := List.mem_map.1 member
    rw [leased.lengthOf, lengths assignment among]
  · intro views viewed
    rw [leased.readings] at viewed
    split
    · exact ⟨#[], rfl⟩
    · refine kernel_rows_isOk within.accounted.valid ordered enough placed
        (fun target member => lengths (target, none) member) viewed (readable _ ?_)
      have first := List.forall₂_take data.length viewed
      rwa [List.take_left] at first

/-! ## Room for the sums -/

theorem two_mul_runs_le
    (length : Nat)
    {width : Nat}
    (long : 2 ≤ width) :
    2 * Size.runs length width ≤ length + 1 := by
  unfold Size.runs
  have covered := Nat.div_mul_le_self (length + width - 1) width
  generalize (length + width - 1) / width = runs at covered
  cases runs with
  | zero => exact Nat.zero_le _
  | succ runs =>
    have twice : runs * 2 ≤ runs * width := Nat.mul_le_mul_left _ long
    rw [Nat.succ_mul] at covered
    omega

/-- A column can be summed with room for two of them and one element more. -/
theorem ends_sumUp_of_room
    {buffer : BufferId}
    {failed : Error → Store α → Prop}
    (steady : make.Steady)
    (within : store.Within make (quotaOf []))
    (free : store.Free buffer)
    (length : store.lengthOf buffer = domain)
    (room : 2 * domain < make.capacity)
    (sized : make.capacity < Size.limit)
    (width : fanIn < Size.limit) :
    Ends (sumUp buffer domain fanIn) store (fun _ _ => True) failed := by
  have long : 2 ≤ max fanIn Config.minFanIn := Nat.le_max_right ..
  have runs := two_mul_runs_le domain long
  obtain ⟨claim, claimed, unleased⟩ := free
  obtain ⟨values, reads, -⟩ := exists_reading within.accounted.valid claimed
  have size : values.size = domain := (size_of_reading within.accounted.valid reads).trans length
  have load : loadOf [(buffer, store.lengthOf buffer)] = domain := by
    rw [length]
    exact Nat.add_zero domain
  have summed : Ends
      (withLease buffer .accelerator do
        (AxisLayout.flat domain).treeReduce fanIn Arithmetic.add
          [← blockOf buffer] () firstInput)
      store (fun _ _ => True) fun _ _ => False := by
    refine ends_withLease_of_room steady within ⟨claim, claimed, unleased⟩ ?_ ?_
    · rw [length]
      show domain + 0 ≤ make.capacity
      omega
    intro middle frame onTier leased
    obtain ⟨block, stored⟩ := onAccelerator_pin onTier
    have still : (middle.pin buffer).reading? buffer = some values := by
      rw [reading?_pin, frame.readings buffer (Set.notMem_empty _) (Set.notMem_empty _), reads]
    have pins : List.Forall₂ (middle.pin buffer).Pins [buffer] [block] := by
      refine .cons ⟨stored, claim.pin, ?_, Nat.succ_pos _⟩ .nil
      rw [claim?_pin, if_pos rfl, frame.claims buffer (Set.notMem_empty _), claimed,
        Option.map_some]
    rw [ends_bind_iff]
    refine (ends_blockOf ⟨block, stored⟩).mono ?_ fun _ _ failed => failed
    rintro other _ ⟨rfl, again⟩
    rw [stored] at again
    cases again
    refine AxisLayout.ends_treeReduce_of_room (fun _ => True) steady
      (AxisLayout.addressable_flat (by omega)) width leased trivial pins
      (yields_of_reading still) ?_ ?_
    · intro views viewed
      cases viewed with
      | cons first rest =>
        cases rest
        rw [still] at first
        cases first
        have count : (AxisLayout.flat domain).count = values.size := by
          rw [size]
          show 1 * domain * 1 = domain
          rw [Nat.one_mul, Nat.mul_one]
        rw [count]
        exact gives_firstInput values
    · have count : ((AxisLayout.flat domain).shortened (max fanIn Config.minFanIn)).count =
          Size.runs domain (max fanIn Config.minFanIn) := by
        show 1 * Size.runs domain _ * 1 = _
        rw [Nat.one_mul, Nat.mul_one]
      rw [load, count]
      omega
  have kept : Preserves (Within make (quotaOf []))
      (withLease buffer .accelerator do
        (AxisLayout.flat domain).treeReduce fanIn Arithmetic.add
          [← blockOf buffer] () firstInput : Store.Action α BufferId) :=
    within_withLease fun _ => .bind preserves_blockOf fun _ => AxisLayout.within_treeReduce
  unfold sumUp
  rw [ends_bind_iff]
  refine ((ends_sumPasses within.accounted.valid reads size).and
    ((kept store within).and summed)).mono ?_ fun _ _ never => never.2.2.elim
  rintro total middle ⟨made, booked, -⟩
  obtain ⟨length, fresh⟩ := made.fresh
  exact ends_take_of_free steady booked ⟨_, fresh, rfl⟩

/-- Settling a column is not refused, and moves no claim. -/
theorem ends_settle_of_room
    {assignment : Assignment}
    {failed : Error → Store α → Prop}
    (steady : make.Steady)
    (within : store.Within make (quotaOf []))
    (distinct : (assignment.1.buffer :: assignment.2.toList).Nodup)
    (free : ∀ buffer ∈ assignment.1.buffer :: assignment.2.toList, store.Free buffer)
    (lengths : ∀ spare ∈ assignment.2, store.lengthOf spare = domain)
    (room : ∀ spare ∈ assignment.2, 2 * domain < make.capacity)
    (sized : make.capacity < Size.limit)
    (width : fanIn < Size.limit) :
    Ends (settle domain fanIn assignment) store
      (fun _ after => after.Within make (quotaOf []) ∧ ∃ written, Frame ∅ written store after)
      failed := by
  obtain ⟨target, spare⟩ := assignment
  cases spare with
  | none => exact ⟨within, ∅, .refl within.accounted.valid⟩
  | some spare =>
    have length := lengths spare rfl
    have own : spare ∈ (some spare).toList := List.mem_singleton.2 rfl
    have freeTarget := free target.buffer List.mem_cons_self
    have freeSpare := free spare (List.mem_cons_of_mem _ own)
    have different : target.buffer ≠ spare := by
      rintro rfl
      exact (List.nodup_cons.1 distinct).1 own
    obtain ⟨claim, claimed, unleased⟩ := freeSpare
    obtain ⟨adjoints, reads, -⟩ := exists_reading within.accounted.valid claimed
    have size := (size_of_reading within.accounted.valid reads).trans length
    have freeSpare : store.Free spare := ⟨claim, claimed, unleased⟩
    have runs : Ends (settle domain fanIn (target, some spare)) store (fun _ _ => True)
        fun _ _ => False := by
      unfold settle
      rw [ends_bind_iff]
      refine ((ends_sumUp within.accounted.valid reads size).and ((within_sumUp store within).and
        (ends_sumUp_of_room steady within freeSpare length (room spare rfl) sized width))).mono ?_
          fun _ _ never => never.2.2
      rintro total summed ⟨⟨frame, -⟩, booked, -⟩
      rw [ends_bind_iff]
      refine ((ends_release booked.accounted.valid).and ((within_release summed booked).and
        (ends_release_of_free (freeSpare.frame frame (Set.notMem_empty _))))).mono ?_
          fun _ _ never => never.2.2
      rintro _ released ⟨⟨later, -⟩, bookedLater, -⟩
      have still := (freeTarget.frame frame (Set.notMem_empty _)).frame later (Set.notMem_empty _)
      unfold addTo
      rw [ends_bind_iff]
      exact (ends_update_of_free steady bookedLater still _).mono (fun _ _ _ => trivial)
        fun _ _ never => never
    refine ((ends_settle within.accounted.valid different reads size).and
      ((within_settle store within).and runs)).mono ?_ fun _ _ never => never.2.2.elim
    rintro _ after ⟨⟨frame, -⟩, booked, -⟩
    exact ⟨booked, _, frame⟩

/-- Nothing that follows the launch is refused. -/
theorem ends_settleAll_of_room
    {assignments : List Assignment}
    {failed : Error → Store α → Prop}
    (steady : make.Steady)
    (within : store.Within make (quotaOf []))
    (distinct : (buffers assignments).Nodup)
    (free : ∀ buffer ∈ buffers assignments, store.Free buffer)
    (lengths : ∀ spare ∈ spares assignments, store.lengthOf spare = domain)
    (room : ∀ spare ∈ spares assignments, 2 * domain < make.capacity)
    (sized : make.capacity < Size.limit)
    (width : fanIn < Size.limit) :
    Ends (assignments.forM (settle domain fanIn)) store (fun _ _ => True) failed := by
  induction assignments generalizing store with
  | nil => trivial
  | cons assignment assignments step =>
    rw [buffers_cons] at distinct free
    rw [spares_cons] at lengths room
    obtain ⟨own, later, -⟩ := List.nodup_append'.1 distinct
    have mine : ∀ spare ∈ assignment.2, spare ∈ assignment.2.toList ++ spares assignments :=
      fun spare member => List.mem_append_left _ (Option.mem_toList.2 member)
    show Ends (settle domain fanIn assignment >>= fun _ => assignments.forM (settle domain fanIn))
      store _ _
    rw [ends_bind_iff]
    refine (ends_settle_of_room steady within own
      (fun buffer member => free buffer (List.mem_append_left _ member))
      (fun spare member => lengths spare (mine spare member))
      (fun spare member => room spare (mine spare member)) sized width).mono ?_
      fun _ _ never => never
    rintro _ middle ⟨booked, written, frame⟩
    refine step booked later (fun buffer member => ?_) (fun spare member => ?_)
      fun spare member => room spare (List.mem_append_right _ member)
    · exact (free buffer (List.mem_append_right _ member)).frame frame (Set.notMem_empty _)
    · rw [lengthOf_frame frame (Set.notMem_empty _),
        lengths spare (List.mem_append_right _ member)]

/-! ## Room for the whole pass -/

/--
Once the targets are assigned, a pass runs just if its data and one column for each of
them fit.  Something is summed only where the launch has needed more room than that takes.
-/
theorem ends_assigned_full
    {assignments : List Assignment}
    (steady : make.Steady)
    (within : store.Within make (quotaOf []))
    (ordered : plan.Ordered)
    (enough : data.length = plan.dataLength)
    (placed : ∀ assignment ∈ assignments,
      assignment.1.source.Before plan.dataLength plan.length)
    (distinct : (data ++ buffers assignments).Nodup)
    (free : ∀ buffer ∈ data ++ buffers assignments, store.Free buffer)
    (lengths : ∀ target spare, (target, spare) ∈ assignments → ∃ claim,
      store.claim? target.buffer = some claim ∧
        match spare with
        | none => claim.length = domain
        | some own => claim.length ≠ domain ∧ store.claim? own = some (.fresh domain))
    (readable : ∀ views,
      List.Forall₂ (fun buffer values => store.reading? buffer = some values) data views →
      ∀ coordinate < domain, Readable views.toArray plan.dataLength coordinate)
    (wide : ∀ own ∈ spares assignments,
      2 * domain < store.extent data + assignments.length * domain)
    (sized : make.capacity < Size.limit)
    (width : fanIn < Size.limit) :
    Ends
      (do
        launchSweep plan data domain assignments
        assignments.forM (settle domain fanIn))
      store (fun _ _ => store.extent data + assignments.length * domain ≤ make.capacity)
      (fun reason after => Frame ∅ ∅ store after ∧
        Full make.capacity (store.extent data + assignments.length * domain) reason) := by
  have distinctOwn : (buffers assignments).Nodup := (List.nodup_append'.1 distinct).2.1
  have sublist : (data ++ assignments.map output).Sublist (data ++ buffers assignments) :=
    (List.Sublist.refl data).append (outputs_sublist assignments)
  have sizes : ∀ assignment ∈ assignments, store.lengthOf (output assignment) = domain := by
    intro assignment member
    obtain ⟨claim, claimed, length⟩ := claim?_output lengths assignment member
    rw [lengthOf, claimed, Option.elim_some, length]
  have launched := ends_launchSweep_full steady within ordered enough placed
    (sublist.nodup distinct) (fun buffer member => free buffer (sublist.subset member)) sizes
    readable
  rw [ends_bind_iff]
  refine ((ends_launchSweep within.accounted.valid ordered enough
    ((outputs_sublist assignments).nodup distinctOwn) (claim?_output lengths)).and
      ((within_launchSweep store within).and launched)).mono ?_
        fun _ _ failed => ⟨failed.1, failed.2.2⟩
  rintro _ swept ⟨⟨frame, -⟩, booked, fits⟩
  refine (ends_settleAll_of_room steady booked distinctOwn
    (fun buffer member =>
      (free buffer (List.mem_append_right _ member)).frame frame (Set.notMem_empty _))
    (fun own member => ?_) (fun own member => Nat.lt_of_lt_of_le (wide own member) fits)
    sized width).mono (fun _ _ _ => fits) fun _ _ never => never
  obtain ⟨target, inside⟩ := mem_spares_iff.1 member
  rw [lengthOf_frame frame (Set.notMem_empty _)]
  exact sizes (target, some own) inside

namespace Assigns

variable
    {middle : Store α}
    {assignments : List Assignment}
    (assigns : Assigns store middle targets domain assignments)
    (free : ∀ buffer ∈ data ++ targets.map (·.buffer), store.Free buffer)

include assigns free

theorem notMem_spares_of_free
    {buffer : BufferId}
    (member : buffer ∈ data ++ targets.map (·.buffer)) :
    buffer ∉ spares assignments := by
  obtain ⟨claim, claimed, -⟩ := free buffer member
  refine assigns.notMem_spares ?_
  rw [claimed]
  exact nofun

/-- No buffer of a pass is leased once its targets are assigned. -/
theorem free_buffers : ∀ buffer ∈ data ++ buffers assignments, middle.Free buffer := by
  intro buffer member
  rw [(assigns.perm_buffers.append_left data).mem_iff, ← List.append_assoc] at member
  rcases List.mem_append.1 member with member | member
  · exact (free buffer member).frame assigns.frame (assigns.notMem_spares_of_free free member)
  · exact ⟨_, assigns.claim?_spare member, rfl⟩

theorem nodup_append_buffers (distinct : (data ++ targets.map (·.buffer)).Nodup) :
    (data ++ buffers assignments).Nodup := by
  rw [(assigns.perm_buffers.append_left data).nodup_iff, ← List.append_assoc, List.nodup_append']
  refine ⟨distinct, ?_, fun buffer member own => assigns.notMem_spares_of_free free member own⟩
  exact (List.nodup_append'.1 (assigns.perm_buffers.nodup_iff.1 assigns.distinct)).2.1

theorem extent_data : middle.extent data = store.extent data :=
  congrArg List.sum (List.map_congr_left fun _ member => lengthOf_frame assigns.frame
    (assigns.notMem_spares_of_free free (List.mem_append_left _ member)))

/-- A target that has a spare buffer is not as long as the output. -/
theorem lengthOf_target_ne
    {target : Target}
    {own : BufferId}
    (member : (target, some own) ∈ assignments) :
    store.lengthOf target.buffer ≠ domain := by
  obtain ⟨claim, claimed, different, -⟩ := assigns.lengths target (some own) member
  have among : target.buffer ∈ data ++ targets.map (·.buffer) :=
    List.mem_append_right _ (List.mem_map_of_mem (assigns.mem_targets member))
  rw [← lengthOf_frame assigns.frame (assigns.notMem_spares_of_free free among), lengthOf,
    claimed, Option.elim_some]
  exact different

end Assigns

/--
A pass runs just if its data and one column for each target fit, and one that does not
run leaves all gradients alone.
-/
theorem ends_addAdjoints_full
    (steady : make.Steady)
    (within : store.Within make (quotaOf []))
    (ordered : plan.Ordered)
    (enough : data.length = plan.dataLength)
    (placed : ∀ target ∈ targets, target.source.Before plan.dataLength plan.length)
    (distinct : (data ++ targets.map (·.buffer)).Nodup)
    (free : ∀ buffer ∈ data ++ targets.map (·.buffer), store.Free buffer)
    (readable : ∀ views,
      List.Forall₂ (fun buffer values => store.reading? buffer = some values) data views →
      ∀ coordinate < domain, Readable views.toArray plan.dataLength coordinate)
    (wide : ∀ target ∈ targets, store.lengthOf target.buffer ≠ domain →
      2 * domain < store.extent data + targets.length * domain)
    (sized : make.capacity < Size.limit)
    (width : fanIn < Size.limit) :
    Ends (addAdjoints plan data targets domain fanIn) store
      (fun _ _ => store.extent data + targets.length * domain ≤ make.capacity)
      (fun reason after =>
        Full make.capacity (store.extent data + targets.length * domain) reason ∧
        ∀ target ∈ targets, after.reading? target.buffer = store.reading? target.buffer) := by
  refine (ends_addAdjoints_of_assigned (Within make (quotaOf [])) (fun _ => within_allocate _)
    (fun _ => store.extent data + targets.length * domain ≤ make.capacity)
    (fun reason after =>
      Full make.capacity (store.extent data + targets.length * domain) reason ∧
      ∀ target ∈ targets, after target.buffer = store.reading? target.buffer)
    within.accounted.valid within (List.nodup_append'.1 distinct).2.1 ?_ ?_ ?_).mono
      (fun _ _ done => done.2) fun _ _ failed => failed.2
  · intro stays first second same
    refine ⟨id, fun reason ⟨full, untouched⟩ => ⟨full, fun target member => ?_⟩⟩
    rw [same target.buffer (stays target member), untouched target member]
  · intro target member absent
    obtain ⟨claim, claimed, -⟩ :=
      free target.buffer (List.mem_append_right _ (List.mem_map_of_mem member))
    rw [absent] at claimed
    cases claimed
  · intro assignments middle assigns booked
    have sameExtent := assigns.extent_data free
    have whole := ends_assigned_full steady booked ordered enough
      (fun assignment member => placed _ (assigns.mem_targets member))
      (assigns.nodup_append_buffers free distinct) (assigns.free_buffers free) assigns.lengths
      (fun views viewed => readable views (forall₂_of_mem viewed fun buffer member values reads =>
        (assigns.reading?_eq
          (assigns.notMem_spares_of_free free (List.mem_append_left _ member))).symm.trans reads))
      (fun own member => by
        obtain ⟨target, inside⟩ := mem_spares_iff.1 member
        rw [sameExtent, assigns.length_eq]
        exact wide target (assigns.mem_targets inside) (assigns.lengthOf_target_ne free inside))
      sized width
    rw [sameExtent, assigns.length_eq] at whole
    refine ((ends_assigned assigns.frame.valid ordered enough assigns.distinct
      assigns.lengths).and whole).mono (fun _ _ done => ⟨done.1.1, done.2⟩) ?_
    rintro reason after ⟨⟨written, -⟩, frame, full⟩
    refine ⟨written, full, fun target member => ?_⟩
    rw [frame.readings _ (Set.notMem_empty _) (Set.notMem_empty _),
      assigns.reading?_eq (assigns.target_notMem_spares member)]

end Elementwise.Gradient
