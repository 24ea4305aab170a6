import Mathlib
import Elementwise.Proofs.Table
import Elementwise.Proofs.Buffer.Session

/-!
# What the counts of a store come to

The totals that a store reports are computed from its registry, and those of
an accelerator are kept up to date call by call.  Both are sums over the live
buffers: the registry lists each of them once, and each live block is that of
one buffer or one that somebody else reserved.

A session on a new store is balanced after every run of requests, whichever of
them failed.
-/

namespace Elementwise

namespace Store

variable {α : Type}

/-! ## Sums over the registry -/

/-- What a buffer takes up on a tier. -/
def takes (store : Store α) (tier : Tier) (buffer : BufferId) : Nat :=
  (store.buffers.get? buffer).elim 0 fun found =>
    if found.location = tier then found.length else 0

theorem foldl_add
    {β : Type}
    (keep : β → Prop)
    [DecidablePred keep]
    (amount : β → Nat)
    (entries : List β)
    (start : Nat) :
    entries.foldl (fun total entry => if keep entry then total + amount entry else total) start =
      start + (entries.map fun entry => if keep entry then amount entry else 0).sum := by
  induction entries generalizing start with
  | nil => rfl
  | cons entry entries step =>
    rw [List.foldl_cons, step, List.map_cons, List.sum_cons]
    split <;> omega

section

variable
    {make : Make}
    {others : Others α}
    {store : Store α}

/-- A sum over the registry is a sum over the live buffers. -/
theorem Accounted.sum_registered
    (accounted : store.Accounted make others)
    (weight : Buffer α → Nat) :
    (store.registered.map (weight ·.2)).sum =
      ∑ buffer ∈ store.buffers.keys, (store.buffers.get? buffer).elim 0 weight := by
  have listed : ∀ registry : List BufferId,
      ((registry.filterMap fun buffer => (buffer, ·) <$> store.buffers.get? buffer).map
        (weight ·.2)).sum =
      (registry.map fun buffer => (store.buffers.get? buffer).elim 0 weight).sum := by
    intro registry
    induction registry with
    | nil => rfl
    | cons buffer registry step =>
      rw [List.filterMap_cons, List.map_cons, List.sum_cons, ← step]
      cases store.buffers.get? buffer with
      | none => exact (Nat.zero_add _).symm
      | some found => rfl
  rw [registered, listed, ← List.sum_toFinset _ accounted.distinct]
  refine (Finset.sum_subset ?_ ?_).symm
  · intro buffer live
    obtain ⟨found, present⟩ := Table.mem_keys_iff.1 live
    exact List.mem_toFinset.2 (accounted.listed buffer found.contents
      (by rw [contents?, present]; rfl))
  · intro buffer _ dead
    rw [Table.notMem_keys_iff.1 dead]
    rfl

theorem Accounted.usage_eq
    (accounted : store.Accounted make others)
    (tier : Tier) :
    store.usage tier = ∑ buffer ∈ store.buffers.keys, store.takes tier buffer := by
  have sums := accounted.sum_registered fun found =>
    if found.location = tier then found.length else 0
  have adds := foldl_add (fun entry : BufferId × Buffer α => entry.2.location = tier)
    (fun entry => entry.2.length) store.registered 0
  rw [usage, adds, Nat.zero_add, sums]
  rfl

theorem Accounted.count_eq
    (accounted : store.Accounted make others) :
    store.count = store.buffers.keys.card := by
  have sums := accounted.sum_registered fun _ => 1
  have ones : ∀ buffer ∈ store.buffers.keys,
      (store.buffers.get? buffer).elim 0 (fun _ => 1) = 1 := by
    intro buffer live
    obtain ⟨found, present⟩ := Table.mem_keys_iff.1 live
    rw [present, Option.elim_some]
  rw [Finset.sum_congr rfl ones, ← Finset.card_eq_sum_ones, List.map_const', List.sum_replicate,
    smul_eq_mul, Nat.mul_one] at sums
  exact sums

omit others in
/-- The live buffers that the registry lists. -/
theorem map_registered :
    store.registered.map Prod.fst = store.registry.filter store.buffers.contains := by
  rw [registered, List.map_filterMap, ← List.filterMap_eq_filter]
  refine List.filterMap_congr fun buffer _ => ?_
  cases present : store.buffers.get? buffer <;> simp [Option.guard, Table.contains, present]

theorem Accounted.nodup_registered (accounted : store.Accounted make others) :
    (store.registered.map Prod.fst).Nodup := by
  rw [map_registered]
  exact accounted.distinct.filter _

/-- The registry lists every live buffer. -/
theorem Accounted.mem_registered_iff
    (accounted : store.Accounted make others)
    {buffer : BufferId} :
    buffer ∈ store.registered.map Prod.fst ↔ ∃ claim, store.claim? buffer = some claim := by
  rw [map_registered, List.mem_filter, Table.contains, Option.isSome_iff_exists]
  constructor
  · rintro ⟨-, found, present⟩
    exact ⟨found.claim, by rw [claim?, present, Option.map_some]⟩
  · rintro ⟨claim, claimed⟩
    obtain ⟨found, present, -⟩ := Option.map_eq_some_iff.1 claimed
    exact ⟨accounted.listed buffer found.contents (by rw [contents?, present]; rfl), found, present⟩

/-! ## Blocks in use -/

/-- The buffers on the accelerator. -/
def resident (store : Store α) : Finset BufferId :=
  store.buffers.keys.filter fun buffer => store.location? buffer = some .accelerator

/-- The handle of the block of a buffer. -/
def handleOf (store : Store α) (buffer : BufferId) : Nat :=
  ((store.contents? buffer).bind (·.block?)).elim 0 (·.handle)

omit make others in
theorem mem_resident_iff
    {buffer : BufferId} :
    buffer ∈ store.resident ↔
      ∃ found, store.buffers.get? buffer = some found ∧ found.location = .accelerator := by
  rw [resident, Finset.mem_filter, Table.mem_keys_iff, location?]
  constructor
  · rintro ⟨⟨found, present⟩, onAccelerator⟩
    rw [present] at onAccelerator
    exact ⟨found, present, Option.some.inj onAccelerator⟩
  · rintro ⟨found, present, onAccelerator⟩
    exact ⟨⟨found, present⟩, by rw [present, Option.map_some, onAccelerator]⟩

/-- A buffer on the accelerator has a live block of its length. -/
theorem Accounted.exists_block
    (accounted : store.Accounted make others)
    {buffer : BufferId}
    (member : buffer ∈ store.resident) :
    ∃ found block values, store.buffers.get? buffer = some found ∧
      store.contents? buffer = some (.device block) ∧ store.handleOf buffer = block.handle ∧
      store.accelerator.pool.blocks.get? block.handle = some values ∧
      values.size = found.length := by
  obtain ⟨found, present, onAccelerator⟩ := mem_resident_iff.1 member
  have held : store.contents? buffer = some found.contents := by rw [contents?, present]; rfl
  have claimed : store.claim? buffer = some found.claim := by rw [claim?, present]; rfl
  have located := accounted.located buffer found.contents held
  rw [location?, present, Option.map_some, onAccelerator] at located
  have fits := accounted.valid.fits buffer found.claim found.contents claimed held
  cases isDevice : found.contents <;> rw [isDevice] at located fits held <;> cases located
  next block =>
    obtain ⟨-, -, values, isLive, size⟩ := fits
    exact ⟨found, block, values, present, held, by rw [handleOf, held]; rfl, isLive, size⟩

theorem Accounted.owns_handleOf
    (accounted : store.Accounted make others)
    {buffer : BufferId}
    (member : buffer ∈ store.resident) :
    store.Owns buffer (store.handleOf buffer) := by
  obtain ⟨-, block, -, -, held, same, -⟩ := accounted.exists_block member
  exact ⟨block, held, same.symm⟩

theorem Accounted.injOn_handleOf (accounted : store.Accounted make others) :
    Set.InjOn store.handleOf store.resident := by
  intro buffer member other otherMember equal
  obtain ⟨block, held, same⟩ := accounted.owns_handleOf member
  obtain ⟨shared, otherHeld, otherSame⟩ := accounted.owns_handleOf otherMember
  rw [← same, ← otherSame] at equal
  exact accounted.valid.apart buffer other block shared held otherHeld equal

section

variable
    {foreign : Finset Nat}
    (accounted : store.Accounted make others)
    (exact : ∀ handle, handle ∈ foreign ↔ ∃ values, (handle, some values) ∈ others)

include accounted exact

/-- The live blocks are those of the buffers on the accelerator and those of others. -/
theorem Accounted.keys_eq :
    store.accelerator.pool.blocks.keys = store.resident.image store.handleOf ∪ foreign := by
  ext handle
  rw [Table.mem_keys_iff, Finset.mem_union, Finset.mem_image, exact]
  constructor
  · rintro ⟨values, live⟩
    refine (accounted.placed handle values live).imp ?_ ?_
    · rintro ⟨buffer, block, held, rfl⟩
      obtain ⟨found, present, -⟩ := Option.map_eq_some_iff.1 held
      have located := accounted.located buffer _ held
      rw [location?, present] at located
      refine ⟨buffer, mem_resident_iff.2 ⟨found, present, Option.some.inj located⟩, ?_⟩
      rw [handleOf, held]
      rfl
    · rintro ⟨held, member⟩
      obtain ⟨same, -⟩ := accounted.held handle held member
      exact ⟨values, by rwa [← live, same]⟩
  · rintro (⟨buffer, member, rfl⟩ | ⟨values, member⟩)
    · obtain ⟨-, block, values, -, -, same, live, -⟩ := accounted.exists_block member
      exact ⟨values, by rw [same, live]⟩
    · exact ⟨values, (accounted.held handle _ member).1⟩

theorem Accounted.disjoint_foreign : Disjoint (store.resident.image store.handleOf) foreign := by
  refine Finset.disjoint_left.2 fun handle owned isForeign => ?_
  obtain ⟨buffer, member, rfl⟩ := Finset.mem_image.1 owned
  obtain ⟨values, held⟩ := (exact _).1 isForeign
  exact accounted.apart buffer _ _ (accounted.owns_handleOf member) held

/--
What is in use on the accelerator is what buffers take up there, together with
what others hold.
-/
theorem Accounted.used_eq :
    store.accelerator.pool.used = store.usage .accelerator +
      ∑ handle ∈ foreign, (store.accelerator.pool.blocks.get? handle).elim 0 Array.size := by
  rw [accounted.counted.used, Table.total, accounted.keys_eq exact,
    Finset.sum_union (accounted.disjoint_foreign exact),
    Finset.sum_image accounted.injOn_handleOf, accounted.usage_eq]
  refine congrArg (· + _) ?_
  have inside : store.resident ⊆ store.buffers.keys := Finset.filter_subset ..
  rw [← Finset.sum_subset inside]
  · refine Finset.sum_congr rfl fun buffer member => ?_
    obtain ⟨found, onAccelerator⟩ := mem_resident_iff.1 member
    obtain ⟨same, block, values, present, -, named, live, size⟩ := accounted.exists_block member
    rw [onAccelerator.1] at present
    cases present
    rw [named, live, takes, onAccelerator.1, Option.elim_some, Option.elim_some, size,
      if_pos onAccelerator.2]
  · intro buffer live elsewhere
    obtain ⟨found, present⟩ := Table.mem_keys_iff.1 live
    rw [takes, present, Option.elim_some, if_neg]
    exact fun onAccelerator => elsewhere (mem_resident_iff.2 ⟨found, present, onAccelerator⟩)

end

end

namespace Session

variable
    {make : Make}
    {session : Session α}

/-! ## What the books of a session say -/

/-- The buffers to which the user refers, each once. -/
def live (session : Session α) : Finset BufferId :=
  (session.buffers ++ session.leases).toList.reduceOption.toFinset

theorem mem_live_iff {buffer : BufferId} : buffer ∈ session.live ↔ session.Refers buffer := by
  rw [live, List.mem_toFinset, List.reduceOption_mem_iff, Array.mem_toList_iff, Array.mem_append,
    Refers]

/-- The reserved blocks that were not given back. -/
def foreign (session : Session α) : Finset Block :=
  session.reserved.toList.toFinset.filter fun block =>
    session.store.accelerator.pool.blocks.contains block.handle

/--
Every live buffer holds nothing, or host values or a live block as long as
itself, says which, and shares its block with nobody.  There are no live blocks
but these and the reserved ones, and all totals are the sums that they should
be.
-/
structure Balanced (capacity : Nat) (session : Session α) : Prop where
  live : ∀ buffer, buffer ∈ session.live ↔ ∃ found, session.store.buffers.get? buffer = some found
  located : ∀ buffer found, session.store.buffers.get? buffer = some found →
    found.location = found.contents.tier
  host : ∀ buffer found values, session.store.buffers.get? buffer = some found →
    found.contents = .host values → values.size = found.length
  device : ∀ buffer found block, session.store.buffers.get? buffer = some found →
    found.contents = .device block → block.length = found.length ∧
      ∃ values, session.store.accelerator.pool.blocks.get? block.handle = some values ∧
        values.size = found.length
  apart : ∀ buffer other block shared, session.store.contents? buffer = some (.device block) →
    session.store.contents? other = some (.device shared) → block.handle = shared.handle →
      buffer = other
  unshared : ∀ buffer block, session.store.contents? buffer = some (.device block) →
    ∀ reserved ∈ session.reserved, block.handle ≠ reserved.handle
  placed : ∀ handle values,
    session.store.accelerator.pool.blocks.get? handle = some values →
      (∃ buffer block, session.store.contents? buffer = some (.device block) ∧
        block.handle = handle) ∨
      ∃ block ∈ session.reserved, block.handle = handle
  used : session.store.accelerator.pool.used =
    session.store.usage .accelerator + ∑ block ∈ session.foreign, block.length
  fits : session.store.accelerator.pool.used ≤ capacity
  balance : session.store.accelerator.pool.counters.allocations =
    session.store.accelerator.pool.counters.frees + session.store.accelerator.pool.blocks.size
  usage : ∀ tier, session.store.usage tier =
    ∑ buffer ∈ session.live, session.store.takes tier buffer
  count : session.store.count = session.live.card

theorem Sound.keys_eq_live (sound : session.Sound make) :
    session.store.buffers.keys = session.live := by
  ext buffer
  rw [Table.mem_keys_iff, mem_live_iff, ← sound.live_iff, claim?]
  cases session.store.buffers.get? buffer <;> simp

/-- Reserved blocks have handles of their own. -/
theorem Sound.injOn_handle (sound : session.Sound make) :
    Set.InjOn Block.handle { block | block ∈ session.reserved } := by
  intro block member other otherMember equal
  obtain ⟨first, inside, rfl⟩ := Array.mem_iff_getElem.1 member
  obtain ⟨second, otherInside, rfl⟩ := Array.mem_iff_getElem.1 otherMember
  obtain rfl := sound.distinct first second _ _ (Array.getElem?_eq_getElem inside)
    (Array.getElem?_eq_getElem otherInside) equal
  rfl

theorem mem_foreign_iff {block : Block} :
    block ∈ session.foreign ↔ block ∈ session.reserved ∧
      ∃ values, session.store.accelerator.pool.blocks.get? block.handle = some values := by
  rw [foreign, Finset.mem_filter, List.mem_toFinset, Array.mem_toList_iff, Table.contains,
    Option.isSome_iff_exists]

/-- The live blocks of others are the reserved ones that were not given back. -/
theorem mem_handles_foreign_iff {handle : Nat} :
    handle ∈ session.foreign.image Block.handle ↔
      ∃ values, (handle, some values) ∈ session.others := by
  rw [Finset.mem_image]
  constructor
  · rintro ⟨block, member, rfl⟩
    obtain ⟨reserved, values, live⟩ := mem_foreign_iff.1 member
    exact ⟨values, live ▸ mem_others reserved⟩
  · rintro ⟨values, block, reserved, same⟩
    obtain ⟨rfl, live⟩ := Prod.ext_iff.1 same
    exact ⟨block, mem_foreign_iff.2 ⟨reserved, values, live.symm⟩, rfl⟩

/-- A reserved block takes up as many elements as it says. -/
theorem Sound.sum_foreign (sound : session.Sound make) :
    ∑ handle ∈ session.foreign.image Block.handle,
        (session.store.accelerator.pool.blocks.get? handle).elim 0 Array.size =
      ∑ block ∈ session.foreign, block.length := by
  have inside : ∀ block ∈ session.foreign, block ∈ session.reserved := fun block member =>
    (mem_foreign_iff.1 member).1
  rw [Finset.sum_image (sound.injOn_handle.mono inside)]
  refine Finset.sum_congr rfl fun block member => ?_
  obtain ⟨reserved, values, live⟩ := mem_foreign_iff.1 member
  rw [live, Option.elim_some, sound.sized block reserved values live]

/-- What is in use is what buffers take up, together with what was reserved. -/
theorem Sound.used_eq (sound : session.Sound make) :
    session.store.accelerator.pool.used =
      session.store.usage .accelerator + ∑ block ∈ session.foreign, block.length := by
  rw [sound.accounted.used_eq fun _ => mem_handles_foreign_iff, sound.sum_foreign]

/-- A sound session is balanced. -/
theorem Sound.balanced (sound : session.Sound make) : session.Balanced make.capacity := by
  have accounted := sound.accounted
  have lookUp : ∀ {buffer found}, session.store.buffers.get? buffer = some found →
      session.store.claim? buffer = some found.claim ∧
        session.store.contents? buffer = some found.contents := fun present =>
    ⟨by rw [claim?, present]; rfl, by rw [contents?, present]; rfl⟩
  have fits : ∀ {buffer found}, session.store.buffers.get? buffer = some found →
      found.contents.Fits session.store.accelerator.pool found.length := fun present =>
    accounted.valid.fits _ _ _ (lookUp present).1 (lookUp present).2
  exact
    { live := fun buffer => by rw [← sound.keys_eq_live, Table.mem_keys_iff]
      located := fun _ _ present => accounted.location_eq_tier present
      host := fun buffer found values present onHost => by
        have fits := fits present
        rw [onHost] at fits
        exact fits
      device := fun buffer found block present onDevice => by
        have fits := fits present
        rw [onDevice] at fits
        exact ⟨fits.1, fits.2.2⟩
      apart := accounted.valid.apart
      unshared := fun buffer block held reserved member same =>
        accounted.apart buffer _ _ ⟨block, held, same⟩ (mem_others member)
      placed := fun handle values live => by
        refine (accounted.placed handle values live).imp_right ?_
        rintro ⟨stored, block, member, same⟩
        exact ⟨block, member, (Prod.ext_iff.1 same).1.symm⟩
      used := sound.used_eq
      fits := by
        rw [← accounted.made]
        exact accounted.counted.fits
      balance := accounted.counted.balance
      usage := fun tier => by rw [accounted.usage_eq, sound.keys_eq_live]
      count := by rw [accounted.count_eq, sound.keys_eq_live] }

section

variable [Arithmetic α]

/-- What a step does to the reserved blocks. -/
structure Respects
    (session after : Session α)
    (command : Command α)
    (answer : Except Error (Answer α)) : Prop where
  /-- A block stays as it is until it is given back. -/
  kept : ∀ (index : Nat) (block : Block), session.reserved[index]? = some block →
    after.reserved[index]? = some block ∧
      (command ≠ .unreserve index →
        after.store.accelerator.pool.blocks.get? block.handle =
          session.store.accelerator.pool.blocks.get? block.handle)
  returned : ∀ index, command = .unreserve index → ∀ block,
    session.reserved[index]? = some block →
      after.store.accelerator.pool.blocks.get? block.handle = none
  reserved : ∀ length index, command = .reserve length → answer = .ok (.named index) →
    ∃ block, after.reserved[index]? = some block ∧ block.length = length ∧
      after.store.accelerator.pool.blocks.get? block.handle = some (zeros α length)

/-- Only the request for it gives back a reserved block. -/
theorem returned_effectOf
    {command : Command α}
    {index : Nat}
    (other : command ≠ .unreserve index)
    (answer : Except Error (Answer α)) :
    (session.effectOf command answer).returned ≠ some index := by
  cases answer with
  | error reason => rintro ⟨⟩
  | ok told =>
    intro given
    cases command with
    | unreserve block => exact other (congrArg _ (Option.some.inj given))
    | ensure name tier => cases tier <;> cases given
    | _ => cases given

theorem Sound.respects
    (sound : session.Sound make)
    (command : Command α) :
    Respects session (session.step command).2 command (session.step command).1 := by
  obtain ⟨step, tells⟩ := sound.step (show session.step command = (_, _) from rfl)
  refine ⟨fun index block found => ⟨step.reserved index block found, fun other => ?_⟩, ?_, ?_⟩
  · exact step.blocks index block found (returned_effectOf other _)
  · rintro index rfl block found
    have answered : (session.step (.unreserve index)).1 = .ok .done := by
      simp only [Session.step, perform, bind, EStateM.bind, get, getThe, MonadStateOf.get,
        EStateM.get, found]
      rfl
    exact tells .done answered block found
  · rintro length index rfl answered
    exact tells (.named index) answered index rfl

variable
    {capacity : Nat}
    {device : DeviceId}
    {unsupported : List OpCode}
    {faults : Method → Nat → Option DeviceError}
    {commands : List (Command α)}

/--
Every session that a run of requests leads to is balanced, and its next step
respects the reserved blocks.
-/
theorem balanced_of_run
    (reached : (start capacity device unsupported faults).run commands = session) :
    session.Balanced capacity ∧
      ∀ command, Respects session (session.step command).2 command (session.step command).1 :=
  have sound := sound_of_run reached
  ⟨sound.balanced, sound.respects⟩

/-- A reserved block leaves room for one of two buffers; many others came and went. -/
def shared : List (Command Int) :=
  [.reserve 1, .allocateFrom #[1, 2], .allocateFrom #[3, 4], .ensure 0 .accelerator, .churn 70 1]

/-- The accelerator is full, and no buffer was lost. -/
theorem balanced_of_run_shared :
    (onIntegers shared).store.accelerator.pool.used = 3 ∧
      (onIntegers shared).store.usage .accelerator = 2 ∧
      (onIntegers shared).store.count = (onIntegers shared).live.card ∧
      (onIntegers shared).live.card = 2 := by
  have reached : (start 3 ⟨0⟩ [] fun _ _ => none).run shared = onIntegers shared := rfl
  obtain ⟨balanced, -⟩ := balanced_of_run reached
  exact ⟨by decide +kernel, by decide +kernel, balanced.count, by decide +kernel⟩

end

end Session

end Store

end Elementwise
