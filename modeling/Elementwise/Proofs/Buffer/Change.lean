import Elementwise.Proofs.Buffer.Frame

/-!
# The elementary changes of the buffer store

Everything that an operation does to a store is one of a few changes: the
accelerator does something, the contents of a buffer are replaced, a buffer is
made, or the number of those that hold or lease a buffer changes.  Each comes
with its frame.
-/

namespace Elementwise.Store

variable {α : Type} [Arithmetic α] {store : Store α} {buffer : BufferId}

/-! ## What the accelerator does -/

/-- The buffers whose block has one of the handles. -/
def behind (store : Store α) (handles : Nat → Prop) : Set BufferId :=
  { buffer | ∃ block, store.contents? buffer = some (.device block) ∧ handles block.handle }

/-- A block that no buffer has. -/
def Unowned (store : Store α) (block : Block) : Prop :=
  ∀ other shared, store.contents? other = some (.device shared) → shared.handle ≠ block.handle

omit [Arithmetic α] in
theorem Unowned.behind
    {block : Block}
    (unowned : store.Unowned block) :
    store.behind (· = block.handle) = ∅ := by
  ext other
  simp only [Store.behind, Set.mem_ofPred_eq, Set.mem_empty_iff_false, iff_false]
  rintro ⟨shared, held, same⟩
  exact unowned other shared held same

omit [Arithmetic α] in
theorem behind_false (store : Store α) : store.behind (fun _ => False) = ∅ := by
  ext buffer
  simp [behind]

/--
What the accelerator does to the blocks under some handles shows in the buffers
behind them.  Blocks that no buffer has do not matter.
-/
theorem frame_of_blocks
    (valid : store.Valid)
    (accelerator : Accelerator α)
    (handles : Nat → Prop)
    (id : accelerator.pool.id = store.accelerator.pool.id)
    (live : ∀ buffer block values, store.contents? buffer = some (.device block) →
      store.accelerator.pool.blocks.get? block.handle = some values →
      ∃ kept, accelerator.pool.blocks.get? block.handle = some kept ∧
        kept.size = values.size ∧ (¬ handles block.handle → kept = values))
    (named : accelerator.pool.Named) :
    Frame ∅ (store.behind handles) store { store with accelerator := accelerator } where
  valid :=
    { fresh := valid.fresh
      wanted := valid.wanted
      fits := by
        intro other claim contents claimed held
        have fits := valid.fits other claim contents claimed held
        cases contents with
        | empty => trivial
        | host values => exact fits
        | device block =>
          obtain ⟨length, device, values, found, size⟩ := fits
          obtain ⟨kept, still, keptSize, -⟩ := live other block values held found
          exact ⟨length, device.trans id.symm, kept, still, keptSize.trans size⟩
      apart := valid.apart
      named := named }
  nextIndex := Nat.le_refl _
  claims _ _ := rfl
  pinned _ _ _ _ _ := rfl
  readings other _ kept := by
    rw [reading?_eq, reading?_eq]
    show (store.claim? other).bind _ = _
    cases claimed : store.claim? other with
    | none => rfl
    | some claim =>
      show (store.contents? other).bind _ = (store.contents? other).bind _
      cases held : store.contents? other with
      | none => rfl
      | some contents =>
        cases contents with
        | empty => rfl
        | host values => rfl
        | device block =>
          obtain ⟨-, -, values, found, -⟩ := valid.fits other claim _ claimed held
          obtain ⟨after, still, -, same⟩ := live other block values held found
          have untouched : ¬ handles block.handle :=
            fun written => kept ⟨block, held, written⟩
          show accelerator.pool.blocks.get? block.handle = store.accelerator.pool.blocks.get? _
          rw [still, found, same untouched]

theorem frame_of_accelerator
    (valid : store.Valid)
    (accelerator : Accelerator α)
    {handles : Nat → Prop}
    (keeps : Pool.Keeps handles store.accelerator.pool accelerator.pool)
    (named : accelerator.pool.Named) :
    Frame ∅ (store.behind handles) store { store with accelerator := accelerator } :=
  frame_of_blocks valid accelerator handles keeps.id
    (fun _ block values _ found => keeps.live block.handle values found) named

/-- Taking back a block that no buffer has leaves all buffers alone. -/
theorem frame_free
    (valid : store.Valid)
    {block : Block}
    (unowned : store.Unowned block) :
    Frame ∅ ∅ store { store with accelerator := store.accelerator.free block } := by
  have frame := frame_of_blocks valid (store.accelerator.free block) (fun _ => False)
    (Pool.id_free ..) ?_ (Pool.named_free valid.named block)
  · rwa [behind_false] at frame
  · intro other shared values held found
    have different : ¬ block.handle = shared.handle :=
      fun same => unowned other shared held same.symm
    exact ⟨values, (Pool.get?_free ..).trans ((if_neg different).trans found), rfl, fun _ => rfl⟩

/-! ## Contents are replaced -/

omit [Arithmetic α] in
/-- A buffer with a claim has contents. -/
theorem exists_contents
    {claim : Claim}
    (claimed : store.claim? buffer = some claim) :
    ∃ contents, store.contents? buffer = some contents := by
  obtain ⟨found, held, -⟩ := Option.map_eq_some_iff.1 claimed
  exact ⟨found.contents, by rw [contents?, held, Option.map_some]⟩

omit [Arithmetic α] in
/-- A buffer with contents has a claim. -/
theorem exists_claim
    {contents : Contents α}
    (held : store.contents? buffer = some contents) :
    ∃ claim, store.claim? buffer = some claim := by
  obtain ⟨found, present, -⟩ := Option.map_eq_some_iff.1 held
  exact ⟨found.claim, by rw [claim?, present, Option.map_some]⟩

/-- A live buffer reads as an array of its length. -/
theorem exists_reading
    (valid : store.Valid)
    {claim : Claim}
    (claimed : store.claim? buffer = some claim) :
    ∃ values, store.reading? buffer = some values ∧ values.size = claim.length := by
  obtain ⟨contents, held⟩ := exists_contents claimed
  have fits := valid.fits buffer claim contents claimed held
  rw [reading?_eq, claimed, held]
  cases contents with
  | empty => exact ⟨zeros α claim.length, rfl, Array.size_replicate⟩
  | host values => exact ⟨values, rfl, fits⟩
  | device block =>
    obtain ⟨-, -, values, found, size⟩ := fits
    exact ⟨values, found, size⟩

theorem claim?_replace (contents : Contents α) :
    (store.replace buffer contents).claim? = store.claim? := by
  funext other
  unfold replace
  split
  · rfl
  · simp only [claim?, Table.get?_modify]
    split
    · cases store.buffers.get? other <;> rfl
    · rfl

theorem replace_eq
    {old contents : Contents α}
    (held : store.contents? buffer = some old) :
    store.replace buffer contents =
      { store with
        accelerator := old.discardOn store.accelerator
        buffers := store.buffers.modify buffer fun found =>
          { found with contents := contents, location := contents.tier } } := by
  obtain ⟨found, present, rfl⟩ := Option.map_eq_some_iff.1 held
  unfold replace
  rw [present]

theorem contents?_replace
    {old contents : Contents α}
    (held : store.contents? buffer = some old)
    (other : BufferId) :
    (store.replace buffer contents).contents? other =
      if buffer = other then some contents else store.contents? other := by
  obtain ⟨found, present, -⟩ := Option.map_eq_some_iff.1 held
  rw [replace_eq held]
  simp only [contents?, Table.get?_modify]
  by_cases same : buffer = other
  · subst same
    simp [present]
  · simp [same]

/-- Discarding contents takes back their block and no other. -/
theorem get?_discardOn
    (contents : Contents α)
    (accelerator : Accelerator α)
    {handle : Nat}
    (different : ∀ block, contents = .device block → block.handle ≠ handle) :
    (contents.discardOn accelerator).pool.blocks.get? handle =
      accelerator.pool.blocks.get? handle := by
  cases contents with
  | empty => rfl
  | host values => rfl
  | device block => exact (Pool.get?_free _ _ _).trans (if_neg (different block rfl))

@[simp]
theorem id_discardOn (contents : Contents α) (accelerator : Accelerator α) :
    (contents.discardOn accelerator).pool.id = accelerator.pool.id := by
  cases contents with
  | empty => rfl
  | host values => rfl
  | device block => exact Pool.id_free ..

theorem named_discardOn
    (contents : Contents α)
    {accelerator : Accelerator α}
    (named : accelerator.pool.Named) :
    (contents.discardOn accelerator).pool.Named := by
  cases contents with
  | empty => exact named
  | host values => exact named
  | device block => exact Pool.named_free named block

/-- Contents whose block is not the one taken back fit as before. -/
theorem fits_discardOn
    {old contents : Contents α}
    {accelerator : Accelerator α}
    {length : Nat}
    (fits : contents.Fits accelerator.pool length)
    (apart : ∀ block shared, old = .device block → contents = .device shared →
      block.handle ≠ shared.handle) :
    contents.Fits (old.discardOn accelerator).pool length := by
  cases contents with
  | empty => trivial
  | host values => exact fits
  | device shared =>
    obtain ⟨sameLength, device, values, found, size⟩ := fits
    refine ⟨sameLength, by rw [id_discardOn]; exact device, values, ?_, size⟩
    rw [get?_discardOn _ _ fun block same => apart block shared same rfl]
    exact found

theorem values?_discardOn
    {old contents : Contents α}
    {accelerator : Accelerator α}
    (length : Nat)
    (apart : ∀ block shared, old = .device block → contents = .device shared →
      block.handle ≠ shared.handle) :
    contents.values? (old.discardOn accelerator).pool length =
      contents.values? accelerator.pool length := by
  cases contents with
  | empty => rfl
  | host values => rfl
  | device shared => exact get?_discardOn _ _ fun block same => apart block shared same rfl

theorem accelerator_replace
    {old contents : Contents α}
    (held : store.contents? buffer = some old) :
    (store.replace buffer contents).accelerator = old.discardOn store.accelerator := by
  rw [replace_eq held]

omit [Arithmetic α] in
/-- No buffer shares its block with the contents that another one gives up. -/
theorem Valid.apart_old
    (valid : store.Valid)
    {old : Contents α}
    (held : store.contents? buffer = some old) :
    ∀ other kept, buffer ≠ other → store.contents? other = some kept →
      ∀ block shared, old = .device block → kept = .device shared →
        block.handle ≠ shared.handle := by
  rintro other kept different present block shared rfl rfl same
  exact different (valid.apart buffer other block shared held present same)

/-- A store stays valid when contents that fit and belong to nobody replace others. -/
theorem valid_replace
    (valid : store.Valid)
    {claim : Claim}
    (claimed : store.claim? buffer = some claim)
    {contents : Contents α}
    (fits : contents.Fits store.accelerator.pool claim.length)
    (unowned : ∀ block, contents = .device block → store.Unowned block) :
    (store.replace buffer contents).Valid := by
  obtain ⟨old, held⟩ := exists_contents claimed
  refine ⟨?_, ?_, ?_, ?_, ?_⟩
  · intro other later
    rw [claim?_replace]
    refine valid.fresh other ?_
    rwa [replace_eq held] at later
  · rw [claim?_replace]
    exact valid.wanted
  · intro other otherClaim kept otherClaimed present
    rw [claim?_replace] at otherClaimed
    rw [contents?_replace held] at present
    rw [accelerator_replace held]
    split at present
    next same =>
      subst same
      cases present
      rw [claimed] at otherClaimed
      cases otherClaimed
      refine fits_discardOn fits ?_
      rintro block shared rfl rfl
      exact unowned shared rfl buffer block held
    next different =>
      exact fits_discardOn (valid.fits other otherClaim kept otherClaimed present)
        (valid.apart_old held other kept different present)
  · intro first second block shared firstHeld secondHeld same
    rw [contents?_replace held] at firstHeld secondHeld
    split at firstHeld
    next isFirst =>
      subst isFirst
      cases firstHeld
      split at secondHeld
      next isSecond => exact isSecond
      next => exact absurd same.symm (unowned block rfl second shared secondHeld)
    next =>
      split at secondHeld
      next isSecond =>
        subst isSecond
        cases secondHeld
        exact absurd same (unowned shared rfl first block firstHeld)
      next => exact valid.apart first second block shared firstHeld secondHeld same
  · rw [accelerator_replace held]
    exact named_discardOn _ valid.named

/-- The contents of a buffer that nobody leases are replaced. -/
theorem frame_replace
    (valid : store.Valid)
    {claim : Claim}
    (claimed : store.claim? buffer = some claim)
    (idle : claim.leases = 0)
    {contents : Contents α}
    (fits : contents.Fits store.accelerator.pool claim.length)
    (unowned : ∀ block, contents = .device block → store.Unowned block) :
    Frame ∅ {buffer} store (store.replace buffer contents) ∧
      (store.replace buffer contents).reading? buffer =
        contents.values? store.accelerator.pool claim.length := by
  obtain ⟨old, held⟩ := exists_contents claimed
  constructor
  · refine ⟨valid_replace valid claimed fits unowned, ?_, ?_, ?_, ?_⟩
    · rw [replace_eq held]
    · intro other _
      rw [claim?_replace]
    · intro other otherClaim _ otherClaimed leased
      rw [contents?_replace held, if_neg]
      rintro rfl
      rw [claimed] at otherClaimed
      cases otherClaimed
      omega
    · intro other _ outside
      have different : ¬ buffer = other := fun same => outside same.symm
      rw [reading?_eq, reading?_eq, claim?_replace, contents?_replace held, if_neg different,
        accelerator_replace held]
      cases store.claim? other with
      | none => rfl
      | some otherClaim =>
        cases present : store.contents? other with
        | none => rfl
        | some kept =>
          exact values?_discardOn otherClaim.length
            (valid.apart_old held other kept different present)
  · rw [reading?_eq, claim?_replace, contents?_replace held, if_pos rfl, claimed,
      accelerator_replace held]
    refine values?_discardOn claim.length ?_
    rintro block shared rfl rfl
    exact unowned shared rfl buffer block held

/-- Moving contents to another tier keeps the readings if they stay the same. -/
theorem frame_replace_same
    (valid : store.Valid)
    {claim : Claim}
    (claimed : store.claim? buffer = some claim)
    (idle : claim.leases = 0)
    {contents : Contents α}
    (fits : contents.Fits store.accelerator.pool claim.length)
    (unowned : ∀ block, contents = .device block → store.Unowned block)
    (same : contents.values? store.accelerator.pool claim.length = store.reading? buffer) :
    Frame ∅ ∅ store (store.replace buffer contents) := by
  obtain ⟨frame, reading⟩ := frame_replace valid claimed idle fits unowned
  refine ⟨frame.valid, frame.nextIndex, frame.claims, frame.pinned, fun other _ _ => ?_⟩
  by_cases equal : other = buffer
  · rw [equal, reading, same]
  · exact frame.readings other (Set.notMem_empty _) equal

/-! ## Buffers are made -/

omit [Arithmetic α] in
theorem claim?_register (length : Nat) (contents : Contents α) (other : BufferId) :
    (store.register length contents).2.claim? other =
      if (store.register length contents).1 = other then some (.fresh length)
      else store.claim? other := by
  simp only [claim?, register, enlist, Table.get?_insert]
  rw [apply_ite (Option.map Buffer.claim)]
  rfl

omit [Arithmetic α] in
theorem contents?_register (length : Nat) (contents : Contents α) (other : BufferId) :
    (store.register length contents).2.contents? other =
      if (store.register length contents).1 = other then some contents
      else store.contents? other := by
  simp only [contents?, register, enlist, Table.get?_insert]
  rw [apply_ite (Option.map fun found : Buffer α => found.contents)]
  rfl

omit [Arithmetic α] in
/-- The name of a new buffer was not in use. -/
theorem claim?_register_fst
    (valid : store.Valid)
    (length : Nat)
    (contents : Contents α) :
    store.claim? (store.register length contents).1 = none :=
  valid.fresh _ (Nat.le_refl _)

/-- A new buffer off the accelerator. -/
theorem frame_register
    (valid : store.Valid)
    {length : Nat}
    {contents : Contents α}
    (fits : contents.Fits store.accelerator.pool length)
    (offDevice : ∀ block, contents ≠ .device block) :
    Frame {(store.register length contents).1} ∅ store (store.register length contents).2 ∧
      (store.register length contents).2.reading? (store.register length contents).1 =
        contents.values? store.accelerator.pool length := by
  constructor
  · refine ⟨⟨?_, ?_, ?_, ?_, valid.named⟩, Nat.le_succ _, ?_, ?_, ?_⟩
    · intro other later
      have older : store.nextIndex + 1 ≤ other.index := later
      rw [claim?_register, if_neg]
      · exact valid.fresh other (by omega)
      · rintro rfl
        exact absurd older (by simp [register, enlist])
    · intro other claim claimed
      rw [claim?_register] at claimed
      split at claimed
      · cases claimed
        exact .inl Nat.one_pos
      · exact valid.wanted other claim claimed
    · intro other claim kept claimed held
      rw [claim?_register] at claimed
      rw [contents?_register] at held
      split at claimed
      next same =>
        rw [if_pos same] at held
        cases claimed
        cases held
        exact fits
      next different =>
        rw [if_neg different] at held
        exact valid.fits other claim kept claimed held
    · intro first second block shared firstHeld secondHeld same
      rw [contents?_register] at firstHeld secondHeld
      split at firstHeld
      · cases firstHeld
        exact absurd rfl (offDevice block)
      · split at secondHeld
        · cases secondHeld
          exact absurd rfl (offDevice shared)
        · exact valid.apart first second block shared firstHeld secondHeld same
    · intro other outside
      rw [claim?_register, if_neg (Ne.symm outside)]
    · intro other claim outside _ _
      rw [contents?_register, if_neg (Ne.symm outside)]
    · intro other outside _
      rw [reading?_eq, reading?_eq, claim?_register, if_neg (Ne.symm outside),
        contents?_register, if_neg (Ne.symm outside)]
      rfl
  · rw [reading?_eq, claim?_register, if_pos rfl, contents?_register, if_pos rfl]
    rfl

/-! ## Holders and leases change -/

/-- The store with the claim on a buffer changed. -/
def revised (store : Store α) (buffer : BufferId) (change : Buffer α → Buffer α) : Store α :=
  { store with buffers := store.buffers.modify buffer change }

/-- A change of a buffer that is a change of the claim on it and nothing else. -/
structure Revises (change : Buffer α → Buffer α) (revise : Claim → Claim) : Prop where
  claim : ∀ found : Buffer α, (change found).claim = revise found.claim
  contents : ∀ found : Buffer α, (change found).contents = found.contents
  length : ∀ claim : Claim, (revise claim).length = claim.length

section

variable
    {change : Buffer α → Buffer α}
    {revise : Claim → Claim}

omit [Arithmetic α] in
theorem claim?_revised (revises : Revises change revise) (other : BufferId) :
    (store.revised buffer change).claim? other =
      if buffer = other then (store.claim? other).map revise else store.claim? other := by
  simp only [claim?, revised, Table.get?_modify]
  rw [apply_ite (Option.map Buffer.claim)]
  cases store.buffers.get? other with
  | none => rfl
  | some found => simp [revises.claim]

omit [Arithmetic α] in
theorem contents?_revised (revises : Revises change revise) :
    (store.revised buffer change).contents? = store.contents? := by
  funext other
  simp only [contents?, revised, Table.get?_modify]
  split
  · cases store.buffers.get? other with
    | none => rfl
    | some found => simp [revises.contents]
  · rfl

theorem reading?_revised (revises : Revises change revise) :
    (store.revised buffer change).reading? = store.reading? := by
  funext other
  rw [reading?_eq, reading?_eq, claim?_revised revises, contents?_revised revises]
  split
  · cases store.claim? other with
    | none => rfl
    | some claim =>
      rw [Option.map_some, Option.bind_some, Option.bind_some, revises.length]
      rfl
  · rfl

/-- Changing a claim that stays wanted leaves everything else alone. -/
theorem frame_revised
    (valid : store.Valid)
    (revises : Revises change revise)
    (wanted : ∀ claim, store.claim? buffer = some claim → (revise claim).Wanted) :
    Frame {buffer} ∅ store (store.revised buffer change) where
  valid :=
    { fresh := by
        intro other later
        rw [claim?_revised revises, valid.fresh other later]
        exact ite_self none
      wanted := by
        intro other claim claimed
        rw [claim?_revised revises] at claimed
        split at claimed
        next same =>
          obtain ⟨old, held, rfl⟩ := Option.map_eq_some_iff.1 claimed
          rw [← same] at held
          exact wanted old held
        · exact valid.wanted other claim claimed
      fits := by
        intro other claim kept claimed held
        rw [claim?_revised revises] at claimed
        rw [contents?_revised revises] at held
        split at claimed
        next same =>
          obtain ⟨old, present, rfl⟩ := Option.map_eq_some_iff.1 claimed
          rw [revises.length]
          exact valid.fits other old kept present held
        · exact valid.fits other claim kept claimed held
      apart := by
        rw [contents?_revised revises]
        exact valid.apart
      named := valid.named }
  nextIndex := Nat.le_refl _
  claims other outside := by rw [claim?_revised revises, if_neg (Ne.symm outside)]
  pinned other _ _ _ _ := by rw [contents?_revised revises]
  readings other _ _ := by rw [reading?_revised revises]

omit [Arithmetic α] in
theorem isWanted_iff (found : Buffer α) : found.isWanted = true ↔ found.claim.Wanted := by
  simp [Buffer.isWanted, Claim.Wanted, Buffer.claim]

/-- A buffer that is still wanted is not reclaimed. -/
theorem reclaim_of_wanted
    {claim : Claim}
    (claimed : store.claim? buffer = some claim)
    (wanted : claim.Wanted) :
    store.reclaim buffer = store := by
  obtain ⟨found, held, rfl⟩ := Option.map_eq_some_iff.1 claimed
  unfold reclaim
  rw [held]
  exact if_pos ((isWanted_iff found).2 wanted)

/-- A buffer that nobody wants any more is gone. -/
theorem reclaim_of_not_wanted
    {claim : Claim}
    {contents : Contents α}
    (claimed : store.claim? buffer = some claim)
    (held : store.contents? buffer = some contents)
    (unwanted : ¬ claim.Wanted) :
    store.reclaim buffer =
      { store with
        accelerator := contents.discardOn store.accelerator
        buffers := store.buffers.erase buffer } := by
  obtain ⟨found, present, rfl⟩ := Option.map_eq_some_iff.1 claimed
  have same : found.contents = contents := by
    rw [contents?, present, Option.map_some] at held
    exact Option.some.inj held
  unfold reclaim
  rw [present, ← same]
  exact if_neg fun wanted => unwanted ((isWanted_iff found).1 wanted)

omit [Arithmetic α] in
theorem claim?_erased (accelerator : Accelerator α) (other : BufferId) :
    claim? { store with
      accelerator := accelerator, buffers := store.buffers.erase buffer } other =
        if buffer = other then none else store.claim? other := by
  simp only [claim?, Table.get?_erase]
  rw [apply_ite (Option.map Buffer.claim)]
  rfl

omit [Arithmetic α] in
theorem contents?_erased (accelerator : Accelerator α) (other : BufferId) :
    contents? { store with
      accelerator := accelerator, buffers := store.buffers.erase buffer } other =
        if buffer = other then none else store.contents? other := by
  simp only [contents?, Table.get?_erase]
  rw [apply_ite (Option.map fun found : Buffer α => found.contents)]
  rfl

/-- Taking a claim back ends the buffer if nobody wants it any more. -/
theorem frame_reclaim
    (valid : store.Valid)
    (revises : Revises change revise)
    {claim : Claim}
    (claimed : store.claim? buffer = some claim) :
    Frame {buffer} ∅ store ((store.revised buffer change).reclaim buffer) ∧
      ((store.revised buffer change).reclaim buffer).claim? buffer =
        if (revise claim).Wanted then some (revise claim) else none := by
  have after : (store.revised buffer change).claim? buffer = some (revise claim) := by
    rw [claim?_revised revises, if_pos rfl, claimed, Option.map_some]
  by_cases wanted : (revise claim).Wanted
  · rw [reclaim_of_wanted after wanted, if_pos wanted]
    refine ⟨frame_revised valid revises fun other held => ?_, after⟩
    rw [claimed] at held
    cases held
    exact wanted
  · obtain ⟨contents, held⟩ := exists_contents claimed
    have heldAfter : (store.revised buffer change).contents? buffer = some contents := by
      rw [contents?_revised revises, held]
    have apart := valid.apart_old held
    rw [reclaim_of_not_wanted after heldAfter wanted, if_neg wanted]
    refine ⟨⟨⟨?_, ?_, ?_, ?_, ?_⟩, Nat.le_refl _, ?_, ?_, ?_⟩, ?_⟩
    · intro other later
      rw [claim?_erased, claim?_revised revises, valid.fresh other later]
      split <;> rfl
    · intro other otherClaim present
      rw [claim?_erased] at present
      split at present
      · cases present
      next different =>
        rw [claim?_revised revises, if_neg different] at present
        exact valid.wanted other otherClaim present
    · intro other otherClaim kept present otherHeld
      rw [claim?_erased] at present
      rw [contents?_erased, contents?_revised revises] at otherHeld
      split at present
      · cases present
      next different =>
        rw [if_neg different] at otherHeld
        rw [claim?_revised revises, if_neg different] at present
        exact fits_discardOn (valid.fits other otherClaim kept present otherHeld)
          (apart other kept different otherHeld)
    · intro first second block shared firstHeld secondHeld same
      rw [contents?_erased, contents?_revised revises] at firstHeld secondHeld
      split at firstHeld
      · cases firstHeld
      · split at secondHeld
        · cases secondHeld
        · exact valid.apart first second block shared firstHeld secondHeld same
    · exact named_discardOn _ valid.named
    · intro other outside
      rw [claim?_erased, if_neg (Ne.symm outside), claim?_revised revises,
        if_neg (Ne.symm outside)]
    · intro other otherClaim outside _ _
      rw [contents?_erased, if_neg (Ne.symm outside), contents?_revised revises]
    · intro other outside _
      have different : ¬ buffer = other := Ne.symm outside
      rw [reading?_eq, reading?_eq, claim?_erased, if_neg different, claim?_revised revises,
        if_neg different, contents?_erased, if_neg different, contents?_revised revises]
      cases store.claim? other with
      | none => rfl
      | some otherClaim =>
        cases present : store.contents? other with
        | none => rfl
        | some kept =>
          exact values?_discardOn otherClaim.length (apart other kept different present)
    · rw [claim?_erased, if_pos rfl]

/-- A buffer that does not exist is not reclaimed. -/
theorem reclaim_of_absent
    (revises : Revises change revise)
    (absent : store.claim? buffer = none) :
    (store.revised buffer change).reclaim buffer = store.revised buffer change := by
  have gone : (store.revised buffer change).claim? buffer = none := by
    rw [claim?_revised revises, if_pos rfl, absent, Option.map_none]
  unfold reclaim
  rw [Option.map_eq_none_iff.1 gone]

/-- Taking a claim back touches no other buffer, whether the buffer is live or not. -/
theorem frame_reclaim_only
    (valid : store.Valid)
    (revises : Revises change revise) :
    Frame {buffer} ∅ store ((store.revised buffer change).reclaim buffer) := by
  cases claimed : store.claim? buffer with
  | some claim => exact (frame_reclaim valid revises claimed).1
  | none =>
    rw [reclaim_of_absent revises claimed]
    refine frame_revised valid revises fun claim held => ?_
    rw [claimed] at held
    cases held

/-- A claim that is taken back in part keeps the contents of the buffer. -/
theorem contents?_reclaim
    (revises : Revises change revise)
    {claim : Claim}
    (claimed : store.claim? buffer = some claim)
    (wanted : (revise claim).Wanted) :
    ((store.revised buffer change).reclaim buffer).contents? = store.contents? ∧
      ((store.revised buffer change).reclaim buffer).reading? = store.reading? := by
  have after : (store.revised buffer change).claim? buffer = some (revise claim) := by
    rw [claim?_revised revises, if_pos rfl, claimed, Option.map_some]
  rw [reclaim_of_wanted after wanted]
  exact ⟨contents?_revised revises, reading?_revised revises⟩

/-- A buffer that is live after a claim is taken back has the contents that it had. -/
theorem contents?_reclaim_of_live
    {other : BufferId}
    {claim : Claim}
    (revises : Revises change revise)
    (live : ((store.revised buffer change).reclaim buffer).claim? other = some claim) :
    ((store.revised buffer change).reclaim buffer).contents? other = store.contents? other := by
  have kept : (store.revised buffer change).contents? other = store.contents? other := by
    rw [contents?_revised revises]
  unfold reclaim at live ⊢
  split at live
  · exact kept
  · split at live
    · rename_i present wanted
      simp only [wanted, if_true]
      exact kept
    · rename_i present unwanted
      rw [claim?_erased] at live
      simp only [unwanted]
      split at live
      · cases live
      next different =>
        exact (contents?_erased ..).trans ((if_neg different).trans kept)

end

omit [Arithmetic α] in
theorem revises_hold :
    Revises (fun found : Buffer α => { found with holders := found.holders + 1 }) Claim.hold :=
  ⟨fun _ => rfl, fun _ => rfl, fun _ => rfl⟩

omit [Arithmetic α] in
theorem revises_drop :
    Revises (fun found : Buffer α => { found with holders := found.holders - 1 }) Claim.drop :=
  ⟨fun _ => rfl, fun _ => rfl, fun _ => rfl⟩

omit [Arithmetic α] in
theorem revises_pin :
    Revises (fun found : Buffer α => { found with leases := found.leases + 1 }) Claim.pin :=
  ⟨fun _ => rfl, fun _ => rfl, fun _ => rfl⟩

omit [Arithmetic α] in
theorem revises_unpin :
    Revises (fun found : Buffer α => { found with leases := found.leases - 1 }) Claim.unpin :=
  ⟨fun _ => rfl, fun _ => rfl, fun _ => rfl⟩

omit [Arithmetic α] in
theorem claim?_pin (other : BufferId) :
    (store.pin buffer).claim? other =
      if buffer = other then (store.claim? other).map Claim.pin else store.claim? other :=
  claim?_revised revises_pin other

omit [Arithmetic α] in
theorem contents?_pin : (store.pin buffer).contents? = store.contents? :=
  contents?_revised revises_pin

theorem reading?_pin : (store.pin buffer).reading? = store.reading? :=
  reading?_revised revises_pin

theorem frame_pin (valid : store.Valid) : Frame {buffer} ∅ store (store.pin buffer) :=
  frame_revised valid revises_pin fun _ _ => .inr (Nat.succ_pos _)

theorem frame_hold (valid : store.Valid) : Frame {buffer} ∅ store (store.hold buffer) :=
  frame_revised valid revises_hold fun _ _ => .inl (Nat.succ_pos _)

/-- A buffer that only its creator held is gone when it is dropped. -/
theorem frame_drop
    (valid : store.Valid)
    {claim : Claim}
    (claimed : store.claim? buffer = some claim) :
    Frame {buffer} ∅ store (store.drop buffer) ∧
      (store.drop buffer).claim? buffer =
        if claim.drop.Wanted then some claim.drop else none :=
  frame_reclaim valid revises_drop claimed

theorem frame_unpin
    (valid : store.Valid)
    {claim : Claim}
    (claimed : store.claim? buffer = some claim) :
    Frame {buffer} ∅ store (store.unpin buffer) ∧
      (store.unpin buffer).claim? buffer =
        if claim.unpin.Wanted then some claim.unpin else none :=
  frame_reclaim valid revises_unpin claimed

end Elementwise.Store
