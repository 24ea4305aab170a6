import Mathlib.Algebra.Group.Nat.Defs
import Elementwise.Proofs.Size
import Elementwise.Proofs.Reduction.Pass

/-!
# What a reduction leaves behind

A reduction that succeeds makes one buffer, which holds the fold in passes of
the entries at every place besides the axis.  One that fails makes none.  No
reading of any other buffer changes in either case, and the result of every
pass but the last is dropped.
-/

namespace Elementwise

namespace Store

variable {α : Type} [Arithmetic α] {base store : Store α} {buffer : BufferId}

omit [Arithmetic α] in
/-- The answer of a computation without effect. -/
theorem ends_check
    {β : Type}
    {result : Except Error β}
    {done : β → Store α → Prop}
    {failed : Error → Store α → Prop}
    (succeeds : ∀ answer, result = .ok answer → done answer store)
    (fails : ∀ reason, failed reason store) :
    Ends (check result) store done failed := by
  cases result with
  | ok answer => exact succeeds answer rfl
  | error reason => exact fails reason

/-- Nothing but one buffer was made, and that reads as values of a kind. -/
structure Made (holds : Array α → Prop) (base store : Store α) (buffer : BufferId) : Prop where
  absent : base.claim? buffer = none
  frame : Frame {buffer} ∅ base store
  fresh : ∃ length, store.claim? buffer = some (.fresh length)
  reads : ∃ values, store.reading? buffer = some values ∧ holds values

/-- A buffer that was made and is given up leaves no trace. -/
theorem Made.frame_drop
    {holds : Array α → Prop}
    {after : Store α}
    (made : Made holds base store buffer)
    {written : Set BufferId}
    (only : written ⊆ {buffer})
    (frame : Frame ∅ written store after) :
    Frame ∅ ∅ base (after.drop buffer) := by
  obtain ⟨length, fresh⟩ := made.fresh
  have still : after.claim? buffer = some (.fresh length) := by
    rw [frame.claims buffer (Set.notMem_empty _), fresh]
  have whole := made.frame.trans frame
  refine (frame_drop_fresh made.absent (whole.mono ?_ ?_) still).1
  · rw [Set.union_empty, Set.empty_union]
  · rw [Set.empty_union, Set.empty_union]
    exact only

theorem Made.mono
    {holds others : Array α → Prop}
    (made : Made holds base store buffer)
    (implies : ∀ values, holds values → others values) :
    Made others base store buffer := by
  obtain ⟨values, reads, held⟩ := made.reads
  exact ⟨made.absent, made.frame, made.fresh, values, reads, implies values held⟩

/-- When a pass has succeeded, its result takes the place of the one before. -/
theorem Made.next
    {holds others : Array α → Prop}
    {middle : Store α}
    {current next : BufferId}
    (made : Made holds base store current)
    (absent : store.claim? next = none)
    (frame : Frame {next} {current} store middle)
    (fresh : ∃ length, middle.claim? next = some (.fresh length))
    (reads : ∃ values, middle.reading? next = some values ∧ others values) :
    Made others base (middle.drop current) next := by
  obtain ⟨length, claimed⟩ := made.fresh
  have different : current ≠ next := by
    rintro rfl
    rw [absent] at claimed
    cases claimed
  have still : middle.claim? current = some (.fresh length) := by
    rw [frame.claims current different, claimed]
  have whole : Frame ({next} ∪ {current}) (∅ ∪ {current}) base middle := by
    rw [Set.union_comm]
    exact made.frame.trans frame
  obtain ⟨dropped, others⟩ := frame_drop_fresh made.absent whole still
  obtain ⟨claims, readings⟩ := others next different
  refine ⟨?_, dropped, ?_, ?_⟩
  · rw [← made.frame.claims next different.symm, absent]
  · rwa [claims]
  · rwa [readings]

/-- A read for the last time answers what the buffer reads as and leaves no trace of it. -/
theorem ends_take
    {holds : Array α → Prop}
    (made : Made holds base store buffer) :
    Ends (take buffer) store
      (fun values after => Frame ∅ ∅ base after ∧ holds values)
      (fun _ after => Frame ∅ ∅ base after) := by
  obtain ⟨reading, reads, held⟩ := made.reads
  unfold take
  rw [ends_followedBy_iff, ends_bind_iff]
  refine (ends_read made.frame.valid).mono ?_ ?_
  · rintro values middle ⟨kept, read⟩
    rw [reads] at read
    cases read
    rw [ends_bind_iff]
    refine (ends_release kept.valid).mono ?_ ?_
    · rintro _ after ⟨released, -⟩
      exact ⟨made.frame_drop (Set.Subset.refl _) (kept.trans_empty released), held⟩
    · intro _ after failed
      exact made.frame_drop (Set.empty_subset _) (kept.trans_empty failed)
  · intro _ after failed
    exact made.frame_drop (Set.empty_subset _) failed

end Store

namespace AxisLayout

open Store

variable
    {α ω : Type}
    [Arithmetic α]
    {layout : AxisLayout}
    {fanIn : Nat}
    {combine : α → α → α}
    {initial : ω}
    {source : Source α ω}
    {keeps : ω → Prop}
    {get : Nat → α}
    {store : Store α}

/-- A new buffer has room for the runs of the axis. -/
theorem ends_allocateRuns (valid : store.Valid) :
    Ends (layout.allocateRuns fanIn) store
      (fun output after => Made (fun _ => True) store after output ∧
        after.claim? output =
          some (.fresh (layout.outer * Size.runs layout.length fanIn * layout.inner)))
      (fun _ after => Frame ∅ ∅ store after) := by
  unfold allocateRuns
  rw [ends_bind_iff]
  refine ends_check ?_ fun _ => Frame.refl valid
  intro length lifted
  obtain rfl := sizeAlong_eq_ok (Size.lift_eq_ok lifted)
  refine (ends_allocate valid _).mono ?_ fun _ _ frame => frame
  rintro output after ⟨absent, frame, fresh, reads, -⟩
  exact ⟨⟨absent, frame, ⟨_, fresh⟩, _, reads, trivial⟩, fresh⟩

/-- A pass into a buffer of the right length on the accelerator. -/
theorem ends_launchPass
    (keeps : ω → Prop)
    (valid : store.Valid)
    (positive : 0 < fanIn)
    (kept : keeps initial)
    {sources : List BufferId}
    {output : BufferId}
    {inputs : List Block}
    {target : Block}
    {held : Claim}
    (claimed : store.claim? output = some held)
    (length : held.length = layout.outer * Size.runs layout.length fanIn * layout.inner)
    (read : List.Forall₂ (fun buffer block => store.contents? buffer = some (.device block))
      sources inputs)
    (written : store.contents? output = some (.device target))
    (yields : ∀ views,
      List.Forall₂ (fun buffer values => store.reading? buffer = some values) sources views →
      source.Yields views.toArray keeps layout.count get) :
    Ends (layout.launchPass fanIn combine initial source inputs target) store
      (fun _ after => Frame ∅ {output} store after ∧ ∃ values,
        after.reading? output = some values ∧
        (layout.shortened fanIn).Holds (layout.passed fanIn combine get) values)
      (fun _ after => Frame ∅ ∅ store after) := by
  obtain ⟨old, reads, size⟩ := exists_reading valid claimed
  unfold launchPass
  rw [ends_bind_iff]
  refine ends_check ?_ fun _ => Frame.refl valid
  intro count lifted
  obtain rfl := sizeAlong_eq_ok (Size.lift_eq_ok lifted)
  refine (ends_launch valid read (.cons written .nil)
    (List.nodup_cons.2 ⟨List.not_mem_nil, .nil⟩)).mono ?_ fun _ _ frame => frame
  rintro _ after ⟨frame, views, rows, viewed, ran, columns⟩
  refine ⟨frame.mono (Set.Subset.refl _) ?_, Pool.writeColumn rows 0 old, ?_,
    holds_of_rows (yields views viewed) positive kept (size.trans length) ran⟩
  · intro other member
    exact List.mem_singleton.1 member
  · rw [columns 0 output rfl, reads, Option.map_some]

/-- The first pass makes one buffer, which holds the folded runs of the source. -/
theorem ends_firstPass
    (valid : store.Valid)
    (positive : 0 < fanIn)
    (kept : keeps initial)
    {sources : List BufferId}
    {inputs : List Block}
    (pins : List.Forall₂ store.Pins sources inputs)
    (yields : ∀ views,
      List.Forall₂ (fun buffer values => store.reading? buffer = some values) sources views →
      source.Yields views.toArray keeps layout.count get) :
    Ends (layout.firstPass fanIn combine inputs initial source) store
      (fun output after =>
        Made ((layout.shortened fanIn).Holds (layout.passed fanIn combine get)) store after output)
      (fun _ after => Frame ∅ ∅ store after) := by
  unfold firstPass
  rw [ends_bind_iff]
  refine (ends_allocateRuns valid).mono ?_ fun _ _ frame => frame
  rintro output middle ⟨made, fresh⟩
  have old : ∀ source ∈ sources, source ∉ ({output} : Set BufferId) := by
    rintro source member rfl
    obtain ⟨block, -, pinned⟩ := exists_of_forall₂ pins source member
    obtain ⟨claim, claimed, -⟩ := pinned.leased
    rw [made.absent] at claimed
    cases claimed
  rw [ends_bind_iff, ends_unlessDone_iff]
  refine (ends_withLease (fun _ => ∅) (fun _ => {output})
    (fun _ inner => ∃ values, inner.reading? output = some values ∧
      (layout.shortened fanIn).Holds (layout.passed fanIn combine get) values)
    made.frame.valid ?_).mono ?_
      fun _ _ failed => made.frame_drop (Set.empty_subset _) failed
  · intro inner held frame onTier claimed
    have same : ∀ source ∈ sources, (inner.pin output).reading? source =
        store.reading? source := by
      intro source member
      rw [reading?_pin, frame.readings source (Set.notMem_empty _) (Set.notMem_empty _),
        made.frame.readings source (old source member) (Set.notMem_empty _)]
    have read : List.Forall₂
        (fun source block => (inner.pin output).contents? source = some (.device block))
        sources inputs :=
      forall₂_of_mem pins fun source member block pinned =>
        (((pinned.frame made.frame (old source member)).frame frame
          (Set.notMem_empty _)).pin output).contents
    have claimedInside : (inner.pin output).claim? output = some held.pin := by
      rw [claim?_pin, if_pos rfl, claimed, Option.map_some]
    have length : held.pin.length =
        layout.outer * Size.runs layout.length fanIn * layout.inner := by
      rw [frame.claims output (Set.notMem_empty _), fresh] at claimed
      cases claimed
      rfl
    rw [ends_bind_iff]
    refine (ends_blockOf (onAccelerator_pin onTier)).mono ?_ fun _ _ failed => failed
    rintro target _ ⟨rfl, written⟩
    refine (ends_launchPass keeps (frame_pin frame.valid).valid
      positive kept claimedInside length read
      written fun views viewed => yields views ?_).mono ?_ ?_
    · refine forall₂_of_mem viewed fun source member values reads => ?_
      rw [← same source member, reads]
    · rintro _ after ⟨written, values, reads, holds⟩
      exact ⟨written, fun _ absent => absent.elim, values, reads, holds⟩
    · exact fun _ _ failed => failed
  · rintro _ after ⟨frame, -, inner, released, values, reads, holds⟩
    have whole := made.frame.trans frame
    have claimed := (frame.claims output (Set.notMem_empty _)).trans fresh
    refine ⟨made.absent, (whole.mono ?_ (Set.Subset.refl _)).narrow ?_, ⟨_, claimed⟩,
      values, ?_, holds⟩
    · rw [Set.union_empty]
    · rw [Set.empty_union, Set.union_empty]
    · rw [released.reading?, reads]

omit [Arithmetic α] in
/-- The first input gives its own elements. -/
theorem yields_firstInput
    [Arithmetic α]
    (values : Array α)
    (count : Nat) :
    Source.Yields firstInput #[values] (fun _ => True) count
      (values.getD · Arithmetic.zero) := by
  intro index _ value _ _ given
  obtain ⟨input, first, rest⟩ := bind_eq_ok_iff.1 given
  obtain ⟨element, read, same⟩ := bind_eq_ok_iff.1 rest
  cases same
  rw [elementAt_eq_ok_iff] at first read
  cases first
  refine ⟨fun _ => ?_, trivial⟩
  have present : values[index]? = some value := read
  show value = values.getD index Arithmetic.zero
  rw [Array.getD_eq_getD_getElem?, present, Option.getD_some]

/-- A pass from one buffer into another, with both leased. -/
theorem ends_passBetween
    (valid : store.Valid)
    (positive : 0 < fanIn)
    {current output : BufferId}
    {held : Claim}
    {old : Array α}
    (different : current ≠ output)
    (reads : store.reading? current = some old)
    (claimed : store.claim? output = some held)
    (length : held.length = layout.outer * Size.runs layout.length fanIn * layout.inner) :
    Ends
      (withLease current .accelerator do
        withLease output .accelerator do
          layout.launchPass fanIn combine () firstInput
            [← blockOf current] (← blockOf output))
      store
      (fun _ after => Frame ∅ {output} store after ∧ ∃ values,
        after.reading? output = some values ∧
        (layout.shortened fanIn).Holds
          (layout.passed fanIn combine (old.getD · Arithmetic.zero)) values)
      (fun _ after => Frame ∅ ∅ store after) := by
  refine (ends_withLease (fun _ => ∅) (fun _ => {output})
    (fun _ inner => ∃ values, inner.reading? output = some values ∧
      (layout.shortened fanIn).Holds
        (layout.passed fanIn combine (old.getD · Arithmetic.zero)) values)
    valid ?_).mono ?_ fun _ _ failed => failed
  · intro first firstHeld frame onTier firstClaimed
    obtain ⟨block, stored⟩ := onAccelerator_pin onTier
    have pins : (first.pin current).Pins current block := by
      refine ⟨stored, firstHeld.pin, ?_, Nat.succ_pos _⟩
      rw [claim?_pin, if_pos rfl, firstClaimed, Option.map_some]
    refine (ends_withLease (fun _ => ∅) (fun _ => {output})
      (fun _ inner => ∃ values, inner.reading? output = some values ∧
        (layout.shortened fanIn).Holds
          (layout.passed fanIn combine (old.getD · Arithmetic.zero)) values)
      (frame_pin frame.valid).valid ?_).mono ?_ fun _ _ failed => failed
    · intro second secondHeld later onTierOutput secondClaimed
      have pinsInside := (pins.frame later (Set.notMem_empty _)).pin output
      have oldInside : (second.pin output).reading? current = some old := by
        rw [reading?_pin, later.readings current (Set.notMem_empty _) (Set.notMem_empty _),
          reading?_pin, frame.readings current (Set.notMem_empty _) (Set.notMem_empty _),
          reads]
      have claimedInside : (second.pin output).claim? output = some secondHeld.pin := by
        rw [claim?_pin, if_pos rfl, secondClaimed, Option.map_some]
      have lengthInside : secondHeld.pin.length =
          layout.outer * Size.runs layout.length fanIn * layout.inner := by
        rw [later.claims output (Set.notMem_empty _), claim?_pin, if_neg different,
          frame.claims output (Set.notMem_empty _), claimed] at secondClaimed
        cases secondClaimed
        exact length
      have yields : ∀ views,
          List.Forall₂ (fun buffer values => (second.pin output).reading? buffer = some values)
            [current] views →
          Source.Yields firstInput views.toArray (fun _ => True) layout.count
            (old.getD · Arithmetic.zero) := by
        intro views viewed
        cases viewed with
        | cons first rest =>
          cases rest
          rw [oldInside] at first
          cases first
          exact yields_firstInput old _
      rw [ends_bind_iff]
      refine (ends_blockOf ⟨block, pinsInside.contents⟩).mono ?_ fun _ _ failed => failed
      rintro input _ ⟨rfl, read⟩
      rw [ends_bind_iff]
      refine (ends_blockOf (onAccelerator_pin onTierOutput)).mono ?_ fun _ _ failed => failed
      rintro target _ ⟨rfl, written⟩
      refine (ends_launchPass (fun _ => True) (frame_pin later.valid).valid positive trivial
        claimedInside lengthInside (.cons read .nil) written yields).mono ?_
          fun _ _ failed => failed
      rintro _ after ⟨written, values, reads, holds⟩
      exact ⟨written, fun _ absent => absent.elim, values, reads, holds⟩
    · rintro _ after ⟨frame, -, inner, released, values, reads, holds⟩
      refine ⟨frame, fun _ absent => absent.elim, values, ?_, holds⟩
      rw [released.reading?, reads]
  · rintro _ after ⟨frame, -, inner, released, values, reads, holds⟩
    exact ⟨frame, values, by rw [released.reading?, reads], holds⟩

/-- A later pass makes a buffer with the folded runs of the one before, which is given up. -/
theorem ends_nextPass
    (valid : store.Valid)
    (positive : 0 < fanIn)
    {current : BufferId}
    {held : Claim}
    {old : Array α}
    (claimed : store.claim? current = some held)
    (reads : store.reading? current = some old) :
    Ends (layout.nextPass fanIn combine current) store
      (fun output after => store.claim? output = none ∧ Frame {output} {current} store after ∧
        (∃ length, after.claim? output = some (.fresh length)) ∧ ∃ values,
          after.reading? output = some values ∧
          (layout.shortened fanIn).Holds
            (layout.passed fanIn combine (old.getD · Arithmetic.zero)) values)
      (fun _ after => Frame ∅ ∅ store after) := by
  unfold nextPass
  rw [ends_bind_iff]
  refine (ends_allocateRuns valid).mono ?_ fun _ _ frame => frame
  rintro output middle ⟨made, fresh⟩
  have different : current ≠ output := by
    rintro rfl
    rw [made.absent] at claimed
    cases claimed
  have stillReads : middle.reading? current = some old := by
    rw [made.frame.readings current different (Set.notMem_empty _), reads]
  rw [ends_bind_iff, ends_unlessDone_iff, ends_bind_iff]
  refine (ends_passBetween made.frame.valid positive different stillReads fresh rfl).mono ?_
    fun _ _ failed => made.frame_drop (Set.empty_subset _) failed
  rintro _ last ⟨frame, values, reads, holds⟩
  refine (ends_release frame.valid).mono ?_ ?_
  · rintro _ after ⟨given, -⟩
    have whole := (made.frame.trans frame).trans given
    have claimed : after.claim? output = _ :=
      ((given.claims output (Set.notMem_empty _)).trans
        (frame.claims output (Set.notMem_empty _))).trans fresh
    refine ⟨made.absent, (whole.mono ?_ (Set.Subset.refl _)).narrow ?_, ⟨_, claimed⟩,
      values, ?_, holds⟩
    · rw [Set.union_empty, Set.union_empty]
    · rw [Set.empty_union]
    · rw [given.readings output (Set.notMem_empty _) fun same => different same.symm, reads]
  · intro _ after failed
    exact made.frame_drop (Set.Subset.refl _) (frame.trans_still failed)

/-- The passes that are left fold every list of entries to one element. -/
theorem ends_laterPasses
    (long : 2 ≤ fanIn)
    {base : Store α}
    {current : BufferId}
    {lists : Nat → Nat → List α}
    (made : Made (layout.Holds lists) base store current) :
    Ends (layout.laterPasses fanIn long combine current) store
      (fun result after => Made
        (layout.reduced.Holds fun before behind =>
          foldPasses combine fanIn layout.length (lists before behind)) base after result)
      (fun _ after => Frame ∅ ∅ base after) := by
  have positive : 0 < fanIn := Nat.lt_of_lt_of_le Nat.zero_lt_two long
  induction size : layout.length using Nat.strong_induction_on
    generalizing layout store current lists with
  | _ total step =>
    unfold laterPasses
    split
    next many =>
      obtain ⟨length, claimed⟩ := made.fresh
      obtain ⟨old, reads, held⟩ := made.reads
      rw [ends_bind_iff, ends_unlessDone_iff]
      refine (ends_nextPass made.frame.valid positive claimed reads).mono ?_
        fun _ _ failed => made.frame_drop (Set.empty_subset _) failed
      rintro next middle ⟨absent, frame, fresh, passedOver⟩
      rw [ends_bind_iff, ends_modify_iff]
      have fewer := Size.runs_lt many long
      refine (step _ (size ▸ fewer) (Made.next made absent frame fresh passedOver) rfl).mono ?_
        fun _ _ failed => failed
      rintro result after final
      refine final.mono fun values holds => ?_
      have reduces : (layout.shortened fanIn).reduced.Holds _ values := holds
      rw [reduced_shortened positive] at reduces
      refine reduces.congr fun before behind outside last => ?_
      rw [← held.entries before behind outside last]
      show foldPasses combine fanIn (Size.runs layout.length fanIn) (foldPass combine fanIn _) = _
      obtain ⟨passes, rfl⟩ := Nat.exists_eq_add_of_lt (size ▸ Nat.lt_of_succ_lt many)
      have length : (layout.entries (old.getD · Arithmetic.zero) before behind).length =
          layout.length := length_entries
      rw [foldPasses, if_neg (by rw [length]; exact Nat.not_le_of_lt many)]
      refine foldPasses_congr long ?_ ?_
      · rw [length_foldPass positive, length]
      · rw [length_foldPass positive, length]
        omega
    next few =>
      have same : layout.reduced = layout := by
        rw [reduced, Nat.min_eq_left (Nat.le_of_not_lt few)]
      refine made.mono fun values holds => ?_
      rw [same]
      refine holds.congr fun before behind outside last => ?_
      have length : (lists before behind).length ≤ 1 := by
        rw [← holds.entries before behind outside last, length_entries]
        exact Nat.le_of_not_lt few
      exact (foldPasses_of_le length total).symm

/--
A reduction makes one buffer, which holds the fold in passes of the entries at
every place besides the axis.
-/
theorem ends_treeReduce
    (keeps : ω → Prop)
    (valid : store.Valid)
    (kept : keeps initial)
    {sources : List BufferId}
    {inputs : List Block}
    (pins : List.Forall₂ store.Pins sources inputs)
    (yields : ∀ views,
      List.Forall₂ (fun buffer values => store.reading? buffer = some values) sources views →
      source.Yields views.toArray keeps layout.count get) :
    Ends (layout.treeReduce fanIn combine inputs initial source) store
      (fun result after => Made
        (layout.reduced.Holds fun before behind =>
          treeFold combine (max fanIn Config.minFanIn) (layout.entries get before behind))
        store after result)
      (fun _ after => Frame ∅ ∅ store after) := by
  have long : 2 ≤ max fanIn Config.minFanIn := Nat.le_max_right ..
  have positive : 0 < max fanIn Config.minFanIn := Nat.lt_of_lt_of_le Nat.zero_lt_two long
  unfold treeReduce
  rw [ends_bind_iff]
  refine (ends_firstPass valid positive kept pins yields).mono ?_ fun _ _ failed => failed
  rintro first middle made
  refine (ends_laterPasses long made).mono ?_ fun _ _ failed => failed
  rintro result after final
  refine final.mono fun values holds => ?_
  rw [reduced_shortened positive] at holds
  refine holds.congr fun before behind _ _ => ?_
  have length : (layout.entries get before behind).length = layout.length := length_entries
  refine foldPasses_congr long ?_ ?_
  · rw [passed, length_foldPass positive, length]
    exact Nat.le_refl _
  · rw [passed, length_foldPass positive, length]
    exact runs_le long _

/-! ## The layout of a shape -/

/-- The layout of a shape has as many elements as the shape. -/
theorem count_ofShape
    {shape : Shape}
    {axis size : Nat}
    (laidOut : ofShape shape axis = .ok layout)
    (sized : shape.size = .ok size) :
    layout.count = size := by
  obtain ⟨_, checked, rest⟩ := bind_eq_ok_iff.1 laidOut
  obtain ⟨outer, before, rest⟩ := bind_eq_ok_iff.1 rest
  obtain ⟨inner, behind, rest⟩ := bind_eq_ok_iff.1 rest
  cases rest
  obtain rfl := Size.product_eq_ok (Size.lift_eq_ok before)
  obtain rfl := Size.product_eq_ok (Size.lift_eq_ok behind)
  obtain rfl := Size.product_eq_ok sized
  have inside : axis < shape.dims.length := by
    by_contra outside
    rw [Shape.checkAxis, Shape.rank, if_neg outside] at checked
    cases checked
  calc (shape.dims.take axis).prod * shape.dims.getD axis 0 * (shape.dims.drop (axis + 1)).prod
      = (shape.dims.take axis).prod * (shape.dims.drop axis).prod := by
        rw [List.drop_eq_getElem_cons inside, List.prod_cons, Nat.mul_assoc,
          List.getD_eq_getElem?_getD, List.getElem?_eq_getElem inside, Option.getD_some]
    _ = shape.dims.prod := by rw [← List.prod_append, List.take_append_drop]

end AxisLayout

end Elementwise
