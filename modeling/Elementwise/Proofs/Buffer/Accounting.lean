import Elementwise.Proofs.Device.Accounting
import Elementwise.Proofs.Buffer.Migration

/-!
# The books of a buffer store

Besides its buffers, an accelerator may serve others, who take blocks from it
directly.  The books of a store are right if those of its accelerator are, if
every live block belongs to a buffer or to somebody else and never to both,
if every buffer says truly on which tier it is, and if the registry lists
every live buffer, each once.

What others hold is a parameter of the books: the handles that were given to
them, and what is stored under each.  The books stay right under this very
parameter, so that no step of the store touches a block that is not its own.
A block that was allocated and does not belong to a buffer yet counts as held
by somebody else in the meantime.
-/

namespace Elementwise.Store

variable {α : Type}

/-- The handles given out to others, and what is stored under each. -/
abbrev Others (α : Type) := Set (Nat × Option (Array α))

/-- The tier on which a buffer says it is. -/
def location? (store : Store α) (buffer : BufferId) : Option Tier :=
  (store.buffers.get? buffer).map (·.location)

/-- The block of a buffer has a handle. -/
def Owns (store : Store α) (buffer : BufferId) (handle : Nat) : Prop :=
  ∃ block, store.contents? buffer = some (.device block) ∧ block.handle = handle

/-- The books of a store are right. -/
structure Accounted (make : Make) (others : Others α) (store : Store α) : Prop where
  valid : store.Valid
  counted : store.accelerator.pool.Counted
  made : store.accelerator.make = make
  /-- Every live block belongs to a buffer or to somebody else. -/
  placed : ∀ handle values, store.accelerator.pool.blocks.get? handle = some values →
    (∃ buffer, store.Owns buffer handle) ∨ ∃ stored, (handle, stored) ∈ others
  /-- What others hold is as they know it, and no handle of theirs is given out again. -/
  held : ∀ handle stored, (handle, stored) ∈ others →
    store.accelerator.pool.blocks.get? handle = stored ∧
      handle < store.accelerator.pool.nextHandle
  apart : ∀ buffer handle stored, store.Owns buffer handle → (handle, stored) ∉ others
  located : ∀ buffer contents, store.contents? buffer = some contents →
    store.location? buffer = some contents.tier
  listed : ∀ buffer contents, store.contents? buffer = some contents → buffer ∈ store.registry
  distinct : store.registry.Nodup
  older : ∀ buffer ∈ store.registry, buffer.index < store.nextIndex

/-- The books of a store without buffers. -/
theorem accounted_create
    {capacity : Nat}
    {id : DeviceId}
    {unsupported : List OpCode}
    {faults : Method → Nat → Option DeviceError} :
    Accounted ⟨id, capacity, unsupported, faults⟩ ∅
      (create (Accelerator.create (Pool.create capacity id unsupported : Pool α) faults)) where
  valid := valid_create (Pool.named_create capacity id unsupported)
  counted := Pool.counted_create capacity id unsupported
  made := rfl
  placed := nofun
  held _ _ absent := absurd absent (Set.notMem_empty _)
  apart := nofun
  located := nofun
  listed := nofun
  distinct := List.nodup_nil
  older := nofun

section

variable
    {make : Make}
    {others : Others α}
    {store after : Store α}
    {buffer : BufferId}

/-- A buffer says truly on which tier it is. -/
theorem Accounted.location_eq_tier
    {found : Buffer α}
    (accounted : store.Accounted make others)
    (present : store.buffers.get? buffer = some found) :
    found.location = found.tier := by
  have located := accounted.located buffer found.contents
    (by rw [contents?, present, Option.map_some])
  rw [location?, present, Option.map_some] at located
  exact Option.some.inj located

/-- A change that concerns neither the contents of buffers nor the accelerator. -/
theorem Accounted.of_contents
    (accounted : store.Accounted make others)
    (valid : after.Valid)
    (contents : after.contents? = store.contents?)
    (location : after.location? = store.location?)
    (accelerator : after.accelerator = store.accelerator)
    (registry : after.registry = store.registry)
    (nextIndex : after.nextIndex = store.nextIndex) :
    after.Accounted make others where
  valid := valid
  counted := by rw [accelerator]; exact accounted.counted
  made := by rw [accelerator]; exact accounted.made
  placed := by
    unfold Owns
    rw [accelerator, contents]
    exact accounted.placed
  held := by rw [accelerator]; exact accounted.held
  apart := by
    unfold Owns
    rw [contents]
    exact accounted.apart
  located := by rw [contents, location]; exact accounted.located
  listed := by rw [contents, registry]; exact accounted.listed
  distinct := by rw [registry]; exact accounted.distinct
  older := by rw [registry, nextIndex]; exact accounted.older

theorem location?_modify
    (clock : Nat)
    (change : Buffer α → Buffer α)
    (kept : ∀ found, (change found).location = found.location) :
    location? { store with clock := clock, buffers := store.buffers.modify buffer change } =
      store.location? := by
  funext other
  simp only [location?, Table.get?_modify]
  split
  · cases store.buffers.get? other with
    | none => rfl
    | some found => exact congrArg some (kept found)
  · rfl

theorem Accounted.touch
    (accounted : store.Accounted make others) :
    (store.touch buffer).Accounted make others := by
  have alike := alike_touch store buffer
  refine accounted.of_contents (alike.valid accounted.valid) alike.contents? ?_ rfl rfl rfl
  exact location?_modify _ (fun found => { found with stamp := store.clock + 1 }) fun _ => rfl

/-! ## What the accelerator does -/

/-- A store stays valid while the sizes of all blocks stay the same. -/
theorem Valid.rewrites
    (valid : store.Valid)
    {pool : Pool α}
    (rewrites : Pool.Rewrites store.accelerator.pool pool)
    (named : pool.Named)
    (calls : CallCounts) :
    (store.called calls pool).Valid where
  fresh := valid.fresh
  wanted := valid.wanted
  fits other claim contents claimed held := by
    have fits := valid.fits other claim contents claimed held
    cases contents with
    | empty => trivial
    | host values => exact fits
    | device block =>
      obtain ⟨length, device, values, found, size⟩ := fits
      have same := rewrites.sizes block.handle
      rw [found, Option.map_some] at same
      obtain ⟨kept, live, sameSize⟩ := Option.map_eq_some_iff.1 same
      exact ⟨length, device.trans rewrites.id.symm, kept, live, sameSize.trans size⟩
  apart := valid.apart
  named := named

/--
A call that leaves the books of the accelerator alone.  Others hold blocks under the same
handles as before, and know what is stored there now.
-/
theorem Accounted.rewritten
    {later : Others α}
    (accounted : store.Accounted make others)
    {pool : Pool α}
    (rewrites : Pool.Rewrites store.accelerator.pool pool)
    (handles : ∀ handle, (∃ stored, (handle, stored) ∈ later) ↔ ∃ stored, (handle, stored) ∈ others)
    (known : ∀ handle stored, (handle, stored) ∈ later → pool.blocks.get? handle = stored)
    (calls : CallCounts) :
    (store.called calls pool).Accounted make later where
  valid := accounted.valid.rewrites rewrites (accounted.counted.rewrites rewrites).named calls
  counted := accounted.counted.rewrites rewrites
  made := by
    rw [← accounted.made]
    show Make.mk pool.id pool.capacity pool.unsupported _ = _
    rw [rewrites.id, rewrites.capacity, rewrites.unsupported]
    rfl
  placed handle values live := by
    have before : (store.accelerator.pool.blocks.get? handle).isSome = true := by
      rw [← rewrites.isSome]
      exact Option.isSome_of_eq_some live
    obtain ⟨old, found⟩ := Option.isSome_iff_exists.1 before
    exact (accounted.placed handle old found).imp_right (handles handle).2
  held handle stored member := by
    obtain ⟨old, before⟩ := (handles handle).1 ⟨stored, member⟩
    obtain ⟨-, used⟩ := accounted.held handle old before
    exact ⟨known handle stored member, Nat.lt_of_lt_of_eq used rewrites.nextHandle.symm⟩
  apart owner handle stored owns member := by
    obtain ⟨old, before⟩ := (handles handle).1 ⟨stored, member⟩
    exact accounted.apart owner handle old owns before
  located := accounted.located
  listed := accounted.listed
  distinct := accounted.distinct
  older := accounted.older

/-- A call that leaves the books of the accelerator and the blocks of others alone. -/
theorem Accounted.called
    (accounted : store.Accounted make others)
    {pool : Pool α}
    (rewrites : Pool.Rewrites store.accelerator.pool pool)
    (kept : ∀ handle stored, (handle, stored) ∈ others →
      pool.blocks.get? handle = store.accelerator.pool.blocks.get? handle)
    (calls : CallCounts) :
    (store.called calls pool).Accounted make others :=
  accounted.rewritten rewrites (fun _ => Iff.rfl)
    (fun handle stored member =>
      (kept handle stored member).trans (accounted.held handle stored member).1) calls

/-- Somebody else stores values in a block of theirs. -/
theorem Accounted.uploaded
    {block : Block}
    {old : Option (Array α)}
    {values : Array α}
    {pool : Pool α}
    (accounted : store.Accounted make (insert (block.handle, old) others))
    (only : ∀ stored, (block.handle, stored) ∉ others)
    (done : store.accelerator.pool.upload block values = .ok pool)
    (calls : CallCounts) :
    (store.called calls pool).Accounted make (insert (block.handle, some values) others) := by
  obtain ⟨keeps, -, live⟩ := Pool.upload_eq_ok accounted.valid.named done
  refine accounted.rewritten (Pool.rewrites_upload done) ?_ ?_ calls
  · intro handle
    simp only [Set.mem_insert_iff, Prod.mk.injEq, exists_or, exists_and_left, exists_eq, and_true]
  · rintro handle stored (same | member)
    · cases same
      exact live
    · obtain ⟨found, -⟩ := accounted.held handle stored (Set.mem_insert_of_mem _ member)
      have different : ¬ handle = block.handle := by
        rintro rfl
        exact only stored member
      cases stored with
      | none =>
        have same := (Pool.rewrites_upload done).isSome handle
        rw [found] at same
        exact Option.not_isSome_iff_eq_none.1 (by rw [same]; exact Bool.false_ne_true)
      | some values =>
        obtain ⟨kept, present, -, unchanged⟩ := keeps.live handle values found
        rw [present, unchanged different]

/-- A call that was refused. -/
theorem Accounted.refused
    (accounted : store.Accounted make others)
    (calls : CallCounts) :
    (store.called calls store.accelerator.pool).Accounted make others :=
  accounted.called (.refl _) (fun _ _ _ => rfl) calls

/-- Nobody was given the next handle. -/
theorem Accounted.unused
    (accounted : store.Accounted make others)
    (stored : Option (Array α)) :
    (store.accelerator.pool.nextHandle, stored) ∉ others :=
  fun member => absurd (accounted.held _ _ member).2 (Nat.lt_irrefl _)

/-- A block held by somebody else belongs to no buffer. -/
theorem Accounted.unowned
    (accounted : store.Accounted make others)
    {block : Block}
    {stored : Option (Array α)}
    (member : (block.handle, stored) ∈ others) :
    store.Unowned block :=
  fun other shared held same =>
    accounted.apart other block.handle stored ⟨shared, held, same⟩ member

variable [Arithmetic α]

/-- A block that was allocated is held by nobody among the buffers. -/
theorem Accounted.allocated
    (accounted : store.Accounted make others)
    {length : Nat}
    {block : Block}
    {pool : Pool α}
    (done : store.accelerator.pool.allocate length = .ok (block, pool))
    (calls : CallCounts) :
    (store.called calls pool).Accounted make
      (insert (block.handle, some (zeros α length)) others) ∧
      block = ⟨store.accelerator.pool.nextHandle, length, store.accelerator.pool.id⟩ := by
  have counted := accounted.counted.allocate done
  have unused := accounted.unused
  obtain ⟨isNew, keeps, named, zeros⟩ := Pool.allocate_eq_ok accounted.valid.named done
  have frame := frame_of_accelerator accounted.valid
    { store.accelerator with pool := pool, calls := calls } keeps named
  have handle : block.handle = store.accelerator.pool.nextHandle := by rw [isNew]
  refine ⟨?_, isNew⟩
  unfold Pool.allocate at done
  split at done
  · cases done
  cases done
  refine ⟨frame.valid, counted, accounted.made, ?_, ?_, ?_, accounted.located, accounted.listed,
    accounted.distinct, accounted.older⟩
  · intro other values live
    have found : (store.accelerator.pool.blocks.insert store.accelerator.pool.nextHandle
      (Elementwise.zeros α length)).get? other = some values := live
    rw [Table.get?_insert] at found
    split at found
    next same =>
      subst same
      exact .inr ⟨_, Set.mem_insert _ _⟩
    · refine (accounted.placed other values found).imp_right ?_
      rintro ⟨stored, member⟩
      exact ⟨stored, Set.mem_insert_of_mem _ member⟩
  · rintro other stored (same | member)
    · cases same
      exact ⟨zeros, Nat.lt_succ_self _⟩
    · obtain ⟨found, used⟩ := accounted.held other stored member
      refine ⟨?_, Nat.lt_succ_of_lt used⟩
      show (store.accelerator.pool.blocks.insert _ _).get? other = stored
      rw [Table.get?_insert, if_neg (Nat.ne_of_gt used), found]
  · rintro owner other stored ⟨shared, held, rfl⟩ (same | member)
    · obtain ⟨claim, claimed⟩ := exists_claim held
      obtain ⟨-, -, values, found, -⟩ := accounted.valid.fits owner claim _ claimed held
      have older := accounted.valid.named shared.handle values found
      have equal : shared.handle = store.accelerator.pool.nextHandle := congrArg Prod.fst same
      omega
    · exact accounted.apart owner shared.handle stored ⟨shared, held, rfl⟩ member

omit [Arithmetic α] in
@[simp]
theorem make_free (accelerator : Accelerator α) (block : Block) :
    (accelerator.free block).make = accelerator.make := by
  unfold Accelerator.make Accelerator.free Pool.free Pool.takeBack
  split
  · split <;> rfl
  · rfl

omit [Arithmetic α] in
/-- Others remember a handle of a block that is gone. -/
theorem Accounted.remember
    (accounted : store.Accounted make others)
    {handle : Nat}
    (dead : store.accelerator.pool.blocks.get? handle = none)
    (used : handle < store.accelerator.pool.nextHandle) :
    store.Accounted make (insert (handle, none) others) where
  valid := accounted.valid
  counted := accounted.counted
  made := accounted.made
  placed other values live := by
    refine (accounted.placed other values live).imp_right ?_
    rintro ⟨stored, member⟩
    exact ⟨stored, Set.mem_insert_of_mem _ member⟩
  held := by
    rintro other stored (same | member)
    · cases same
      exact ⟨dead, used⟩
    · exact accounted.held other stored member
  apart := by
    rintro owner other stored ⟨block, held, rfl⟩ (same | member)
    · obtain ⟨claim, claimed⟩ := exists_claim held
      obtain ⟨-, -, values, found, -⟩ := accounted.valid.fits owner claim _ claimed held
      have equal : block.handle = handle := congrArg Prod.fst same
      rw [equal, dead] at found
      cases found
    · exact accounted.apart owner block.handle stored ⟨block, held, rfl⟩ member
  located := accounted.located
  listed := accounted.listed
  distinct := accounted.distinct
  older := accounted.older

/-- A block that somebody else gives back, and of which they forget the handle. -/
theorem Accounted.free
    {block : Block}
    {values : Array α}
    (accounted : store.Accounted make (insert (block.handle, some values) others))
    (only : ∀ stored, (block.handle, stored) ∉ others)
    (size : values.size = block.length) :
    (freeBlock block store).Accounted make others := by
  obtain ⟨live, -⟩ := accounted.held block.handle (some values) (Set.mem_insert _ _)
  have unowned := accounted.unowned (Set.mem_insert (block.handle, some values) others)
  obtain ⟨counted, -⟩ := accounted.counted.free live size
  have gone : ∀ handle, (store.accelerator.free block).pool.blocks.get? handle =
      if block.handle = handle then none else store.accelerator.pool.blocks.get? handle :=
    Pool.get?_free _ _
  refine ⟨(frame_free accounted.valid unowned).valid, counted,
    (make_free ..).trans accounted.made, ?_, ?_, ?_, accounted.located, accounted.listed,
    accounted.distinct, accounted.older⟩
  · intro handle kept found
    rw [freeBlock, gone] at found
    split at found
    · cases found
    next different =>
      refine (accounted.placed handle kept found).imp_right ?_
      rintro ⟨stored, same | member⟩
      · exact absurd (congrArg Prod.fst same).symm different
      · exact ⟨stored, member⟩
  · intro handle stored member
    obtain ⟨found, used⟩ := accounted.held handle stored (Set.mem_insert_of_mem _ member)
    have different : ¬ block.handle = handle := by
      rintro rfl
      exact only stored member
    refine ⟨by rw [freeBlock, gone, if_neg different, found], ?_⟩
    rw [freeBlock]
    exact Nat.lt_of_lt_of_eq used (Pool.nextHandle_free ..).symm
  · exact fun owner handle stored owns member =>
      accounted.apart owner handle stored owns (Set.mem_insert_of_mem _ member)

/-! ## What happens to buffers -/

theorem get?_discardOn_eq_some
    {contents : Contents α}
    {accelerator : Accelerator α}
    {handle : Nat}
    {values : Array α}
    (found : (contents.discardOn accelerator).pool.blocks.get? handle = some values) :
    accelerator.pool.blocks.get? handle = some values ∧
      ∀ block, contents = .device block → block.handle ≠ handle := by
  cases contents with
  | empty => exact ⟨found, nofun⟩
  | host _ => exact ⟨found, nofun⟩
  | device block =>
    have freed : (accelerator.pool.free block).blocks.get? handle = some values := found
    rw [Pool.get?_free] at freed
    split at freed
    · cases freed
    next different =>
      refine ⟨freed, ?_⟩
      rintro _ ⟨⟩
      exact different

@[simp]
theorem nextHandle_discardOn (contents : Contents α) (accelerator : Accelerator α) :
    (contents.discardOn accelerator).pool.nextHandle = accelerator.pool.nextHandle := by
  cases contents with
  | empty => rfl
  | host _ => rfl
  | device block => exact Pool.nextHandle_free ..

@[simp]
theorem make_discardOn (contents : Contents α) (accelerator : Accelerator α) :
    (contents.discardOn accelerator).make = accelerator.make := by
  cases contents with
  | empty => rfl
  | host _ => rfl
  | device block => exact make_free ..

/-- The books stay right when contents that fit their buffer are given up. -/
theorem counted_discardOn
    {contents : Contents α}
    {accelerator : Accelerator α}
    {length : Nat}
    (counted : accelerator.pool.Counted)
    (fits : contents.Fits accelerator.pool length) :
    (contents.discardOn accelerator).pool.Counted := by
  cases contents with
  | empty => exact counted
  | host _ => exact counted
  | device block =>
    obtain ⟨sameLength, -, values, found, size⟩ := fits
    exact (counted.free found (size.trans sameLength.symm)).1

/-- What others hold is not given up with the contents of a buffer. -/
theorem Accounted.held_discardOn
    (accounted : store.Accounted make others)
    {contents : Contents α}
    (present : store.contents? buffer = some contents)
    {handle : Nat}
    {stored : Option (Array α)}
    (member : (handle, stored) ∈ others) :
    (contents.discardOn store.accelerator).pool.blocks.get? handle = stored ∧
      handle < (contents.discardOn store.accelerator).pool.nextHandle := by
  obtain ⟨found, used⟩ := accounted.held handle stored member
  rw [nextHandle_discardOn]
  refine ⟨(get?_discardOn _ _ ?_).trans found, used⟩
  rintro block rfl same
  exact accounted.apart buffer handle stored ⟨block, present, same⟩ member

theorem location?_replace
    {contents old : Contents α}
    (held : store.contents? buffer = some old)
    (other : BufferId) :
    (store.replace buffer contents).location? other =
      if buffer = other then some contents.tier else store.location? other := by
  obtain ⟨found, present, -⟩ := Option.map_eq_some_iff.1 held
  rw [replace_eq held]
  simp only [location?, Table.get?_modify]
  by_cases same : buffer = other
  · subst same
    simp [present]
  · simp [same]

/--
The contents of a buffer are replaced.  A block that comes to the buffer is no longer held
by somebody else, and that is all that changes for others.
-/
theorem Accounted.replace
    {fewer : Others α}
    (accounted : store.Accounted make others)
    {claim : Claim}
    (claimed : store.claim? buffer = some claim)
    {contents : Contents α}
    (fits : contents.Fits store.accelerator.pool claim.length)
    (held : ∀ block, contents = .device block → ∃ stored, (block.handle, stored) ∈ others)
    (fewerHold : ∀ handle stored, (handle, stored) ∈ fewer ↔
      (handle, stored) ∈ others ∧ ∀ block, contents = .device block → block.handle ≠ handle) :
    (store.replace buffer contents).Accounted make fewer := by
  obtain ⟨old, present⟩ := exists_contents claimed
  have unowned : ∀ block, contents = .device block → store.Unowned block := by
    intro block isDevice
    obtain ⟨stored, member⟩ := held block isDevice
    exact accounted.unowned member
  have accelerator : (store.replace buffer contents).accelerator =
      old.discardOn store.accelerator := accelerator_replace present
  have contentsAfter : ∀ other, (store.replace buffer contents).contents? other =
      if buffer = other then some contents else store.contents? other := contents?_replace present
  refine ⟨valid_replace accounted.valid claimed fits unowned, ?_, ?_, ?_, ?_, ?_, ?_, ?_, ?_, ?_⟩
  · rw [accelerator]
    exact counted_discardOn accounted.counted (accounted.valid.fits _ _ _ claimed present)
  · rw [accelerator, make_discardOn, accounted.made]
  · intro handle values live
    rw [accelerator] at live
    obtain ⟨found, kept⟩ := get?_discardOn_eq_some live
    by_cases isNew : ∃ block, contents = .device block ∧ block.handle = handle
    · obtain ⟨block, isDevice, rfl⟩ := isNew
      refine .inl ⟨buffer, block, ?_, rfl⟩
      rw [contentsAfter, if_pos rfl, isDevice]
    · rcases accounted.placed handle values found with
        ⟨owner, block, stored, same⟩ | ⟨stored, member⟩
      · refine .inl ⟨owner, block, ?_, same⟩
        rw [contentsAfter, if_neg, stored]
        rintro rfl
        rw [present] at stored
        cases stored
        exact kept block rfl same
      · refine .inr ⟨stored, (fewerHold handle stored).2 ⟨member, ?_⟩⟩
        exact fun block isDevice same => isNew ⟨block, isDevice, same⟩
  · intro handle stored member
    rw [accelerator]
    exact accounted.held_discardOn present ((fewerHold handle stored).1 member).1
  · rintro owner handle stored ⟨block, kept, same⟩ member
    obtain ⟨before, different⟩ := (fewerHold handle stored).1 member
    rw [contentsAfter] at kept
    split at kept
    · exact different block (Option.some.inj kept) same
    · exact accounted.apart owner handle stored ⟨block, kept, same⟩ before
  · intro other kept stored
    rw [contentsAfter] at stored
    rw [location?_replace present]
    split at stored
    next same =>
      cases stored
      exact if_pos same
    next different =>
      rw [if_neg different]
      exact accounted.located other kept stored
  · intro other kept stored
    rw [replace_eq present]
    rw [contentsAfter] at stored
    split at stored
    next same =>
      subst same
      exact accounted.listed buffer old present
    · exact accounted.listed other kept stored
  · rw [replace_eq present]
    exact accounted.distinct
  · rw [replace_eq present]
    exact accounted.older

/-- Contents off the accelerator take the place of others. -/
theorem Accounted.replace_off
    (accounted : store.Accounted make others)
    {claim : Claim}
    (claimed : store.claim? buffer = some claim)
    {contents : Contents α}
    (fits : contents.Fits store.accelerator.pool claim.length)
    (off : ∀ block, contents ≠ .device block) :
    (store.replace buffer contents).Accounted make others :=
  accounted.replace claimed fits (fun block isDevice => absurd isDevice (off block))
    fun _ _ => ⟨fun member => ⟨member, fun block isDevice => absurd isDevice (off block)⟩, And.left⟩

/-- A block that was allocated for a buffer takes the place of its contents. -/
theorem Accounted.replace_device
    {block : Block}
    {stored : Option (Array α)}
    (accounted : store.Accounted make (insert (block.handle, stored) others))
    (only : ∀ stored, (block.handle, stored) ∉ others)
    {claim : Claim}
    (claimed : store.claim? buffer = some claim)
    (fits : (Contents.device block : Contents α).Fits store.accelerator.pool claim.length) :
    (store.replace buffer (.device block)).Accounted make others := by
  refine accounted.replace claimed fits ?_ fun handle kept => ⟨fun member => ?_, ?_⟩
  · rintro _ ⟨⟩
    exact ⟨stored, Set.mem_insert _ _⟩
  · refine ⟨Set.mem_insert_of_mem _ member, ?_⟩
    rintro _ ⟨⟩ rfl
    exact only kept member
  · rintro ⟨same | member, different⟩
    · exact absurd (congrArg Prod.fst same).symm (different block rfl)
    · exact member

omit [Arithmetic α] in
theorem location?_register (length : Nat) (contents : Contents α) (other : BufferId) :
    (store.register length contents).2.location? other =
      if (store.register length contents).1 = other then some contents.tier
      else store.location? other := by
  simp only [location?, register, enlist, Table.get?_insert]
  rw [apply_ite (Option.map fun found : Buffer α => found.location)]
  rfl

/-- A buffer is entered in the registry, and no live buffer leaves it. -/
theorem Accounted.register
    (accounted : store.Accounted make others)
    {length : Nat}
    {contents : Contents α}
    (fits : contents.Fits store.accelerator.pool length)
    (off : ∀ block, contents ≠ .device block) :
    (store.register length contents).2.Accounted make others := by
  have valid := (frame_register accounted.valid fits off).1.valid
  have notListed : (store.register length contents).1 ∉ store.registry :=
    fun member => absurd (accounted.older _ member) (Nat.lt_irrefl _)
  have distinct : ((store.register length contents).1 :: store.registry).Nodup :=
    List.nodup_cons.2 ⟨notListed, accounted.distinct⟩
  have owns : ∀ owner handle, (store.register length contents).2.Owns owner handle ↔
      store.Owns owner handle := by
    refine fun owner handle => exists_congr fun block => and_congr_left fun _ => ?_
    rw [contents?_register]
    split
    next same =>
      subst same
      refine ⟨fun isDevice => absurd (Option.some.inj isDevice) (off block), fun held => ?_⟩
      exact absurd (accounted.listed _ _ held) notListed
    · exact Iff.rfl
  refine ⟨valid, accounted.counted, accounted.made, ?_, accounted.held, ?_, ?_, ?_, ?_, ?_⟩
  · intro handle values live
    simp only [owns]
    exact accounted.placed handle values live
  · intro owner handle stored owned
    exact accounted.apart owner handle stored ((owns owner handle).1 owned)
  · intro other kept held
    rw [contents?_register] at held
    rw [location?_register]
    split at held
    next same =>
      cases held
      exact if_pos same
    next different =>
      rw [if_neg different]
      exact accounted.located other kept held
  · intro other kept held
    have live : (store.register length contents).2.buffers.contains other = true := by
      obtain ⟨found, present, -⟩ := Option.map_eq_some_iff.1 held
      rw [Table.contains, present, Option.isSome_some]
    have member : other ∈ (store.register length contents).1 :: store.registry := by
      rw [contents?_register] at held
      split at held
      next same => exact List.mem_cons.2 (.inl same.symm)
      · exact List.mem_cons_of_mem _ (accounted.listed other kept held)
    show other ∈ (if _ then _ else _ : List BufferId)
    split
    · exact List.mem_filter.2 ⟨member, live⟩
    · exact member
  · show (if _ then _ else _ : List BufferId).Nodup
    split
    · exact distinct.filter _
    · exact distinct
  · intro other listed
    have member : other ∈ (store.register length contents).1 :: store.registry := by
      change other ∈ (if _ then _ else _ : List BufferId) at listed
      split at listed
      · exact (List.mem_filter.1 listed).1
      · exact listed
    show other.index < store.nextIndex + 1
    rcases List.mem_cons.1 member with rfl | member
    · exact Nat.lt_succ_self _
    · exact Nat.lt_succ_of_lt (accounted.older other member)

/-- The claim on a buffer changes, and the buffer is gone if nobody wants it any more. -/
theorem Accounted.reclaim
    (accounted : store.Accounted make others)
    {change : Buffer α → Buffer α}
    {revise : Claim → Claim}
    (revises : Revises change revise)
    (location : ∀ found, (change found).location = found.location) :
    ((store.revised buffer change).reclaim buffer).Accounted make others := by
  have valid : ((store.revised buffer change).reclaim buffer).Valid :=
    (frame_reclaim_only accounted.valid revises).valid
  have contents : (store.revised buffer change).contents? = store.contents? :=
    contents?_revised revises
  have located : (store.revised buffer change).location? = store.location? :=
    location?_modify store.clock change location
  have still : (store.revised buffer change).reclaim buffer = store.revised buffer change →
      ((store.revised buffer change).reclaim buffer).Accounted make others := by
    intro same
    rw [same] at valid ⊢
    exact accounted.of_contents valid contents located rfl rfl rfl
  cases claimed : (store.revised buffer change).claim? buffer with
  | none =>
    refine still ?_
    unfold Store.reclaim
    rw [Option.map_eq_none_iff.1 claimed]
  | some claim =>
    by_cases wanted : claim.Wanted
    · exact still (reclaim_of_wanted claimed wanted)
    obtain ⟨old, present⟩ := exists_contents claimed
    have held : store.contents? buffer = some old := by rw [← contents, present]
    obtain ⟨before, claimedBefore⟩ := exists_claim held
    have fits := accounted.valid.fits _ _ _ claimedBefore held
    have after := reclaim_of_not_wanted claimed present wanted
    have contentsAfter : ∀ other, ((store.revised buffer change).reclaim buffer).contents? other =
        if buffer = other then none else store.contents? other := by
      intro other
      rw [after, contents?_erased, contents]
    have remains : ∀ other kept,
        ((store.revised buffer change).reclaim buffer).contents? other = some kept →
        buffer ≠ other ∧ store.contents? other = some kept := by
      intro other kept stored
      rw [contentsAfter] at stored
      split at stored
      · cases stored
      next different => exact ⟨different, stored⟩
    refine ⟨valid, ?_, ?_, ?_, ?_, ?_, ?_, ?_, ?_, ?_⟩
    · rw [after]
      exact counted_discardOn accounted.counted fits
    · rw [after]
      exact (make_discardOn ..).trans accounted.made
    · intro handle values live
      rw [after] at live
      obtain ⟨found, kept⟩ := get?_discardOn_eq_some live
      refine (accounted.placed handle values found).imp_left ?_
      rintro ⟨owner, block, stored, same⟩
      refine ⟨owner, block, ?_, same⟩
      rw [contentsAfter, if_neg, stored]
      rintro rfl
      rw [held] at stored
      cases stored
      exact kept block rfl same
    · intro handle stored member
      rw [after]
      exact accounted.held_discardOn held member
    · rintro owner handle stored ⟨block, kept, same⟩
      exact accounted.apart owner handle stored ⟨block, (remains owner _ kept).2, same⟩
    · intro other kept stored
      obtain ⟨different, stored⟩ := remains other kept stored
      rw [← accounted.located other kept stored, ← located, after]
      simp only [location?, Table.get?_erase, if_neg different]
    · intro other kept stored
      rw [after]
      exact accounted.listed other kept (remains other kept stored).2
    · rw [after]
      exact accounted.distinct
    · rw [after]
      exact accounted.older

theorem Accounted.revised
    (accounted : store.Accounted make others)
    {change : Buffer α → Buffer α}
    {revise : Claim → Claim}
    (revises : Revises change revise)
    (wanted : ∀ claim, (revise claim).Wanted)
    (location : ∀ found, (change found).location = found.location) :
    (store.revised buffer change).Accounted make others :=
  accounted.of_contents (frame_revised accounted.valid revises fun claim _ => wanted claim).valid
    (contents?_revised revises) (location?_modify store.clock change location) rfl rfl rfl

theorem Accounted.hold
    (accounted : store.Accounted make others) :
    (store.hold buffer).Accounted make others :=
  accounted.revised revises_hold (fun _ => .inl (Nat.succ_pos _)) fun _ => rfl

theorem Accounted.pin
    (accounted : store.Accounted make others) :
    (store.pin buffer).Accounted make others :=
  accounted.revised revises_pin (fun _ => .inr (Nat.succ_pos _)) fun _ => rfl

theorem Accounted.drop
    (accounted : store.Accounted make others) :
    (store.drop buffer).Accounted make others :=
  accounted.reclaim revises_drop fun _ => rfl

theorem Accounted.unpin
    (accounted : store.Accounted make others) :
    (store.unpin buffer).Accounted make others :=
  accounted.reclaim revises_unpin fun _ => rfl

end

end Elementwise.Store
