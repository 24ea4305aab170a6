import Elementwise.Proofs.Buffer.Following
import Elementwise.Proofs.Reduction.Room

/-!
# Reductions that end as others do

Every pass leases its source and its result at once, and the result of a pass is
as long in one store as in another.  So if a reduction finds room beside the
leases in one store, it finds room beside the same leases in another one, pass by
pass, and if a pass is refused in one, it is refused in the other.  The values are
the same too, since values that hold the same lists are.
-/

namespace Elementwise

variable {α ω : Type} {make : Make}

namespace AxisLayout

variable [Arithmetic α] {layout : AxisLayout} {fanIn : Nat}

/-- Values are determined by the lists that they hold. -/
theorem Holds.unique
    {lists : Nat → Nat → List α}
    {values others : Array α}
    (holds : layout.Holds lists values)
    (alsoHolds : layout.Holds lists others) :
    values = others := by
  refine Array.ext (holds.size.trans alsoHolds.size.symm) fun place inside insideOther => ?_
  rw [holds.size] at inside
  have positive : 0 < layout.inner := by
    by_contra none
    rw [Nat.eq_zero_of_not_pos none, Nat.mul_zero] at inside
    exact Nat.not_lt_zero _ inside
  have slice : place / layout.inner < layout.outer * layout.length :=
    (Nat.div_lt_iff_lt_mul positive).2 inside
  have long : 0 < layout.length := by
    by_contra none
    rw [Nat.eq_zero_of_not_pos none, Nat.mul_zero] at slice
    exact Nat.not_lt_zero _ slice
  have outside : place / layout.inner / layout.length < layout.outer :=
    (Nat.div_lt_iff_lt_mul long).2 slice
  have along : place / layout.inner % layout.length < layout.length := Nat.mod_lt _ long
  have last : place % layout.inner < layout.inner := Nat.mod_lt _ positive
  have same : (layout.entries (values.getD · Arithmetic.zero) (place / layout.inner / layout.length)
      (place % layout.inner))[place / layout.inner % layout.length]? =
        (layout.entries (others.getD · Arithmetic.zero) (place / layout.inner / layout.length)
          (place % layout.inner))[place / layout.inner % layout.length]? := by
    rw [holds.entries _ _ outside last, alsoHolds.entries _ _ outside last]
  have back : (place / layout.inner / layout.length * layout.length +
      place / layout.inner % layout.length) * layout.inner + place % layout.inner = place := by
    rw [Nat.div_add_mod', Nat.div_add_mod']
  simp only [AxisLayout.entries, entry, List.getElem?_map, List.getElem?_range along,
    Option.map_some, Option.some.injEq, back] at same
  rwa [Array.getD_eq_getD_getElem?, Array.getD_eq_getD_getElem?,
    Array.getElem?_eq_getElem, Array.getElem?_eq_getElem, Option.getD_some,
    Option.getD_some] at same

open Store

variable
    {combine : α → α → α}
    {initial : ω}
    {source : Source α ω}
    {keeps : ω → Prop}
    {get : Nat → α}
    {left right middle middleOther : Store α}
    {buffer other : BufferId}
    {sources : List BufferId}
    {blocks blocksOther : List Block}

/-! ## Buffers that passes make -/

omit [Arithmetic α] in
theorem leasesOf_fresh
    {length : Nat}
    (fresh : left.claim? buffer = some (.fresh length)) :
    left.leasesOf buffer = 0 :=
  leasesOf_of_claim fresh

/-- Steps that make a buffer each, which nobody leases. -/
theorem level_of_made
    {holds holdsOther : Array α → Prop}
    (level : Level make left right)
    (accounted : middle.Accounted make ∅)
    (accountedOther : middleOther.Accounted make ∅)
    (made : Made holds left middle buffer)
    (madeOther : Made holdsOther right middleOther other) :
    Level make middle middleOther := by
  obtain ⟨_, fresh⟩ := made.fresh
  obtain ⟨_, freshOther⟩ := madeOther.fresh
  refine level.step accounted accountedOther made.frame madeOther.frame ?_ ?_
  · rintro _ rfl
    exact ⟨leasesOf_absent made.absent, leasesOf_fresh fresh⟩
  · rintro _ rfl
    exact ⟨leasesOf_absent madeOther.absent, leasesOf_fresh freshOther⟩

omit [Arithmetic α] in
theorem corresponds_of_fresh
    {length : Nat}
    (fresh : left.claim? buffer = some (.fresh length))
    (freshOther : right.claim? other = some (.fresh length)) :
    Corresponds left right buffer other :=
  ⟨.fresh length, fresh, freshOther, fun leased => absurd leased (Nat.lt_irrefl 0)⟩

/-- Buffers for the runs of an axis are as long in both stores. -/
theorem follows_allocateRuns
    (level : Level make left right) :
    Follows (layout.allocateRuns fanIn) (layout.allocateRuns fanIn) left right
      fun output outputOther middle middleOther => Level make middle middleOther ∧
        (Made (fun _ => True) left middle output ∧ middle.claim? output =
          some (.fresh (layout.outer * Size.runs layout.length fanIn * layout.inner))) ∧
        Made (fun _ => True) right middleOther outputOther ∧ middleOther.claim? outputOther =
          some (.fresh (layout.outer * Size.runs layout.length fanIn * layout.inner)) := by
  have answers : Follows (layout.allocateRuns fanIn) (layout.allocateRuns fanIn) left right
      fun _ _ _ _ => True := by
    unfold allocateRuns
    cases Size.lift (layout.sizeAlong (Size.runs layout.length fanIn)) with
    | error reason => exact follows_throw_bind
    | ok length => exact inStep_of_ok rfl rfl trivial
  refine (answers.and_ends
    ((ends_allocateRuns level.accounted.valid).and
      (within_allocateRuns _ level.accounted.within))
    ((ends_allocateRuns level.accountedOther.valid).and
      (within_allocateRuns _ level.accountedOther.within))).mono ?_
  rintro output outputOther middle middleOther ⟨-, ⟨made, books⟩, madeOther, booksOther⟩
  exact ⟨level_of_made level books.accounted booksOther.accounted made.1 madeOther.1, made,
    madeOther⟩

/-! ## Passes -/

section

variable (steady : make.Steady)

include steady

theorem follows_launchPass
    {sources sourcesOther : List BufferId}
    {target targetOther : Block}
    (level : Level make left right)
    (read : List.Forall₂ (fun source block => left.contents? source = some (.device block))
      sources blocks)
    (written : left.contents? buffer = some (.device target))
    (readOther : List.Forall₂
      (fun source block => right.contents? source = some (.device block)) sourcesOther blocksOther)
    (writtenOther : right.contents? other = some (.device targetOther))
    (length : left.lengthOf buffer = layout.outer * Size.runs layout.length fanIn * layout.inner)
    (lengthOther : right.lengthOf other =
      layout.outer * Size.runs layout.length fanIn * layout.inner)
    (same : List.Forall₂ (fun source sourceOther =>
      right.reading? sourceOther = left.reading? source) sources sourcesOther) :
    Follows (layout.launchPass fanIn combine initial source blocks target)
      (layout.launchPass fanIn combine initial source blocksOther targetOther) left right
      fun _ _ _ _ => True := by
  unfold launchPass
  cases lifted : Size.lift (layout.sizeAlong (Size.runs layout.length fanIn)) with
  | error reason => exact follows_throw_bind
  | ok count =>
    obtain rfl := sizeAlong_eq_ok (Size.lift_eq_ok lifted)
    exact follows_launch steady level read written readOther writtenOther
      (Nat.le_of_eq length.symm) (Nat.le_of_eq lengthOther.symm) same

/-- The first pass over buffers that are leased and read the same in both stores. -/
theorem follows_firstPass
    (level : Level make left right)
    (pins : List.Forall₂ left.Pins sources blocks)
    (pinsOther : List.Forall₂ right.Pins sources blocksOther)
    (same : ∀ source ∈ sources, right.reading? source = left.reading? source) :
    Follows (layout.firstPass fanIn combine blocks initial source)
      (layout.firstPass fanIn combine blocksOther initial source) left right
      fun _ _ _ _ => True := by
  -- a source was there before the result was made, and stays where it is
  have kept : ∀ {store middle inside : Store α} {blocks : List Block} {output : BufferId},
      List.Forall₂ store.Pins sources blocks → Made (fun _ => True) store middle output →
      Leased [output] middle inside →
      List.Forall₂ (fun source block => inside.contents? source = some (.device block))
        sources blocks ∧ ∀ source ∈ sources, inside.reading? source = store.reading? source := by
    intro store middle inside blocks output pins made leased
    have old : ∀ source ∈ sources, source ∉ ({output} : Set BufferId) := by
      rintro source member rfl
      obtain ⟨block, -, pinned⟩ := exists_of_forall₂ pins source member
      obtain ⟨claim, claimed, -⟩ := pinned.leased
      rw [made.absent] at claimed
      cases claimed
    refine ⟨forall₂_of_mem pins fun source member block pinned =>
      ((pinned.frame made.frame (old source member)).of_leased leased).contents,
      fun source member => ?_⟩
    rw [leased.readings, made.frame.readings source (old source member) (Set.notMem_empty _)]
  unfold firstPass
  refine follows_bind ((follows_allocateRuns level).mono ?_)
  rintro output outputOther middle middleOther ⟨level, ⟨made, fresh⟩, madeOther, freshOther⟩
  refine follows_bind (follows_unlessDone ((follows_withLease steady level
    (fun _ _ => True) (corresponds_of_fresh fresh freshOther) ?_).mono
      fun _ _ _ _ _ => follows_pure trivial))
  intro inside insideOther leased leasedOther level
  obtain ⟨read, readings⟩ := kept pins made leased
  obtain ⟨readOther, readingsOther⟩ := kept pinsOther madeOther leasedOther
  refine follows_bind ((follows_blockOf (leased.onAccelerator output List.mem_cons_self)
    (leasedOther.onAccelerator outputOther List.mem_cons_self)).mono ?_)
  rintro target targetOther _ _ ⟨rfl, rfl, written, writtenOther⟩
  refine follows_launchPass steady level read written readOther writtenOther ?_ ?_ ?_
  · rw [leased.lengthOf, lengthOf, fresh]
    rfl
  · rw [leasedOther.lengthOf, lengthOf, freshOther]
    rfl
  · refine List.forall₂_same.2 fun source member => ?_
    rw [readingsOther source member, readings source member, same source member]

/-- A pass from one buffer into another, between buffers that correspond. -/
theorem follows_passBetween
    {output outputOther : BufferId}
    (level : Level make left right)
    (different : buffer ≠ output)
    (differentOther : other ≠ outputOther)
    (corresponds : Corresponds left right buffer other)
    (correspondsOutput : Corresponds left right output outputOther)
    (length : left.lengthOf output = layout.outer * Size.runs layout.length fanIn * layout.inner)
    (lengthOther : right.lengthOf outputOther =
      layout.outer * Size.runs layout.length fanIn * layout.inner)
    (same : right.reading? other = left.reading? buffer) :
    Follows
      (withLease buffer .accelerator do
        withLease output .accelerator do
          layout.launchPass fanIn combine () firstInput [← blockOf buffer] (← blockOf output))
      (withLease other .accelerator do
        withLease outputOther .accelerator do
          layout.launchPass fanIn combine () firstInput
            [← blockOf other] (← blockOf outputOther))
      left right fun _ _ _ _ => True := by
  show Follows (withLeasesInOrder [buffer, output] _) (withLeasesInOrder [other, outputOther] _)
    left right _
  refine follows_withLeasesInOrder steady level (fun _ _ => True) ?_
    (List.nodup_cons.2 ⟨by simpa using different, List.nodup_singleton _⟩)
    (List.nodup_cons.2 ⟨by simpa using differentOther, List.nodup_singleton _⟩)
    (.cons corresponds (.cons correspondsOutput .nil))
  intro inside insideOther leased leasedOther level
  have there := leased.onAccelerator
  have thereOther := leasedOther.onAccelerator
  refine follows_bind ((follows_blockOf (there buffer List.mem_cons_self)
    (thereOther other List.mem_cons_self)).mono ?_)
  rintro input inputOther _ _ ⟨rfl, rfl, read, readOther⟩
  refine follows_bind ((follows_blockOf (there output (List.mem_cons_of_mem _ List.mem_cons_self))
    (thereOther outputOther (List.mem_cons_of_mem _ List.mem_cons_self))).mono ?_)
  rintro target targetOther _ _ ⟨rfl, rfl, written, writtenOther⟩
  refine follows_launchPass steady level (.cons read .nil) written (.cons readOther .nil)
    writtenOther ?_ ?_ (.cons ?_ .nil)
  · rw [leased.lengthOf, length]
  · rw [leasedOther.lengthOf, lengthOther]
  · rw [leasedOther.readings, leased.readings, same]

/-- A later pass between results that are as long and read the same. -/
theorem follows_nextPass
    {count : Nat}
    (level : Level make left right)
    (positive : 0 < fanIn)
    (claimed : left.claim? buffer = some (.fresh count))
    (claimedOther : right.claim? other = some (.fresh count))
    (same : right.reading? other = left.reading? buffer) :
    Follows (layout.nextPass fanIn combine buffer) (layout.nextPass fanIn combine other) left right
      fun _ _ _ _ => True := by
  unfold nextPass
  refine follows_bind ((follows_allocateRuns level).mono ?_)
  rintro output outputOther middle middleOther ⟨level, ⟨made, fresh⟩, madeOther, freshOther⟩
  have different : buffer ≠ output := by
    rintro rfl
    rw [made.absent] at claimed
    cases claimed
  have differentOther : other ≠ outputOther := by
    rintro rfl
    rw [madeOther.absent] at claimedOther
    cases claimedOther
  have still : middle.claim? buffer = some (.fresh count) :=
    (made.frame.claims buffer different).trans claimed
  have stillOther : middleOther.claim? other = some (.fresh count) :=
    (madeOther.frame.claims other differentOther).trans claimedOther
  have sameInside : middleOther.reading? other = middle.reading? buffer := by
    rw [madeOther.frame.readings other differentOther (Set.notMem_empty _),
      made.frame.readings buffer different (Set.notMem_empty _), same]
  have length : middle.lengthOf output =
      layout.outer * Size.runs layout.length fanIn * layout.inner := by
    rw [lengthOf, fresh]
    rfl
  have lengthOther : middleOther.lengthOf outputOther =
      layout.outer * Size.runs layout.length fanIn * layout.inner := by
    rw [lengthOf, freshOther]
    rfl
  obtain ⟨values, reads, -⟩ := exists_reading made.frame.valid still
  obtain ⟨valuesOther, readsOther, -⟩ := exists_reading madeOther.frame.valid stillOther
  refine follows_bind (follows_unlessDone (follows_bind ?_))
  refine ((follows_passBetween steady level different differentOther
    (corresponds_of_fresh still stillOther) (corresponds_of_fresh fresh freshOther) length
    lengthOther sameInside).and_ends
      (ends_passBetween made.frame.valid positive different reads fresh rfl)
      (ends_passBetween madeOther.frame.valid positive differentOther readsOther freshOther
        rfl)).mono ?_
  rintro _ _ last lastOther ⟨-, ⟨frame, -⟩, frameOther, -⟩
  have free : last.Free buffer := ⟨_, (frame.claims buffer (Set.notMem_empty _)).trans still, rfl⟩
  have freeOther : lastOther.Free other :=
    ⟨_, (frameOther.claims other (Set.notMem_empty _)).trans stillOther, rfl⟩
  exact follows_of_answers (ends_release_of_free free) (ends_release_of_free freeOther)
    fun _ _ _ _ _ _ => follows_pure trivial

/-- The passes that are left, from results that hold the same lists. -/
theorem follows_laterPasses
    {base baseOther : Store α}
    {lists : Nat → Nat → List α}
    (long : 2 ≤ fanIn)
    (level : Level make base baseOther)
    (accounted : left.Accounted make ∅)
    (accountedOther : right.Accounted make ∅)
    (made : Made (layout.Holds lists) base left buffer)
    (madeOther : Made (layout.Holds lists) baseOther right other) :
    Follows (layout.laterPasses fanIn long combine buffer)
      (layout.laterPasses fanIn long combine other) left right fun _ _ _ _ => True := by
  have positive : 0 < fanIn := Nat.lt_of_lt_of_le Nat.zero_lt_two long
  induction size : layout.length using Nat.strong_induction_on
    generalizing layout left right buffer other lists with
  | _ total step =>
    unfold laterPasses
    split
    next many =>
      have levelInside := level_of_made level accounted accountedOther made madeOther
      have claimed := claim_of_made made
      have claimedOther := claim_of_made madeOther
      obtain ⟨old, reads, held⟩ := made.reads
      obtain ⟨oldOther, readsOther, heldOther⟩ := madeOther.reads
      obtain rfl := held.unique heldOther
      refine follows_bind (follows_unlessDone (((follows_nextPass steady levelInside positive
        claimed claimedOther (readsOther.trans reads.symm)).and_ends
          ((ends_nextPass accounted.valid positive claimed reads).and
            (within_nextPass _ accounted.within))
          ((ends_nextPass accountedOther.valid positive claimedOther readsOther).and
            (within_nextPass _ accountedOther.within))).mono ?_))
      rintro next nextOther middle middleOther ⟨-, ⟨⟨absent, frame, fresh, passedOver⟩, books⟩,
        ⟨absentOther, frameOther, freshOther, passedOverOther⟩, booksOther⟩
      refine follows_bind (follows_modify ?_)
      exact step _ (size ▸ Size.runs_lt many long) books.accounted.drop booksOther.accounted.drop
        (Made.next made absent frame fresh passedOver)
        (Made.next madeOther absentOther frameOther freshOther passedOverOther) rfl
    next => exact follows_pure trivial

/-- A whole reduction over buffers that are leased and read the same in both stores. -/
theorem follows_treeReduce
    (keeps : ω → Prop)
    (get : Nat → α)
    (level : Level make left right)
    (kept : keeps initial)
    (pins : List.Forall₂ left.Pins sources blocks)
    (pinsOther : List.Forall₂ right.Pins sources blocksOther)
    (same : ∀ source ∈ sources, right.reading? source = left.reading? source)
    (yields : ∀ views,
      List.Forall₂ (fun buffer values => left.reading? buffer = some values) sources views →
      source.Yields views.toArray keeps layout.count get) :
    Follows (layout.treeReduce fanIn combine blocks initial source)
      (layout.treeReduce fanIn combine blocksOther initial source) left right
      fun _ _ _ _ => True := by
  have long : 2 ≤ max fanIn Config.minFanIn := Nat.le_max_right ..
  have positive : 0 < max fanIn Config.minFanIn := Nat.lt_of_lt_of_le Nat.zero_lt_two long
  have yieldsOther : ∀ views,
      List.Forall₂ (fun buffer values => right.reading? buffer = some values) sources views →
      source.Yields views.toArray keeps layout.count get :=
    fun views viewed => yields views (forall₂_of_mem viewed fun source member values reads =>
      (same source member).symm.trans reads)
  unfold treeReduce
  refine follows_bind (((follows_firstPass steady level pins pinsOther same).and_ends
    ((ends_firstPass level.accounted.valid positive kept pins yields).and
      (within_firstPass _ level.accounted.within))
    ((ends_firstPass level.accountedOther.valid positive kept pinsOther yieldsOther).and
      (within_firstPass _ level.accountedOther.within))).mono ?_)
  rintro first firstOther middle middleOther ⟨-, ⟨made, books⟩, madeOther, booksOther⟩
  exact follows_laterPasses steady _ level books.accounted booksOther.accounted made madeOther

end

end AxisLayout

end Elementwise
