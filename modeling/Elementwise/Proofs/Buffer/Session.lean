import Mathlib
import Elementwise.Buffer.Session
import Elementwise.Proofs.Element.Integers
import Elementwise.Proofs.Buffer.Upkeep

/-!
# What every run of a session on a store keeps

A session is sound if the books of its store are right, every buffer is held
and leased as often as there are names for it, and every reserved block is what
it was when it was taken.  Every request leaves a sound session behind and has
an effect that can be read off the request: it changes the contents of the one
buffer that it writes, gives up the name that it drops, or gives back the block
that it names, and does nothing at all if it fails.

By induction this holds along every run, on every accelerator and for every
schedule of failing calls.
-/

namespace Elementwise

/-! ## Names that stand for buffers -/

/-- How many of the names stand for a buffer. -/
def standing (names : Array (Option BufferId)) (buffer : BufferId) : Nat :=
  names.count (some buffer)

section

variable
    {names : Array (Option BufferId)}
    {index : Nat}
    {buffer : BufferId}

theorem standing_pos_iff : 0 < standing names buffer ↔ some buffer ∈ names :=
  Array.count_pos_iff

theorem standing_push_none (names : Array (Option BufferId)) (buffer : BufferId) :
    standing (names.push none) buffer = standing names buffer :=
  Array.count_push_of_ne (by rintro ⟨⟩)

theorem standing_push_some (names : Array (Option BufferId)) (buffer other : BufferId) :
    standing (names.push (some buffer)) other =
      standing names other + if buffer = other then 1 else 0 := by
  unfold standing
  rw [Array.count_push]
  by_cases same : buffer = other
  · subst same
    simp
  · simp [same]

/-- A name that stood for nothing is given to a buffer. -/
theorem standing_set_some
    (reserved : names[index]? = some none)
    (buffer other : BufferId) :
    standing (names.setIfInBounds index (some buffer)) other =
      standing names other + if buffer = other then 1 else 0 := by
  obtain ⟨inside, none⟩ := Array.getElem?_eq_some_iff.1 reserved
  unfold standing
  rw [Array.setIfInBounds, dif_pos inside, Array.count_set inside, none]
  simp

/-- A name is taken from a buffer. -/
theorem standing_set_none
    (stands : names[index]? = some (some buffer))
    (other : BufferId) :
    standing names other =
      standing (names.setIfInBounds index none) other + if buffer = other then 1 else 0 := by
  obtain ⟨inside, some⟩ := Array.getElem?_eq_some_iff.1 stands
  have counted : 0 < names.count (.some buffer) :=
    Array.count_pos_iff.2 (Array.mem_of_getElem? stands)
  unfold standing
  rw [Array.setIfInBounds, dif_pos inside, Array.count_set inside, some]
  by_cases same : buffer = other
  · subst same
    simp
    omega
  · simp [same]

theorem mem_of_stands (stands : names[index]? = some (some buffer)) : some buffer ∈ names :=
  Array.mem_of_getElem? stands

end

namespace Store.Session

variable
    {α : Type}
    [Arithmetic α]
    {make : Make}
    {session after : Session α}

/-! ## What a session says of its store -/

/-- Whether the user has a name for a buffer, or for a lease on it. -/
def Refers (session : Session α) (buffer : BufferId) : Prop :=
  some buffer ∈ session.buffers ∨ some buffer ∈ session.leases

/-- How many names there are for a buffer and for leases on it. -/
def holders (session : Session α) (buffer : BufferId) : Nat :=
  standing session.buffers buffer + standing session.leases buffer

/-- The reserved blocks, and what is stored under their handles. -/
def others (session : Session α) : Others α :=
  { entry | ∃ block ∈ session.reserved,
    entry = (block.handle, session.store.accelerator.pool.blocks.get? block.handle) }

/-- The claim on a buffer is that of the names for it and for leases on it. -/
def ClaimedBy (session : Session α) (buffer : BufferId) : Prop :=
  (session.store.claim? buffer = none ∧ session.holders buffer = 0) ∨
    ∃ length, session.store.claim? buffer =
      some ⟨length, session.holders buffer, standing session.leases buffer⟩

/--
The books of the store are right, every buffer is held and leased as often as
there are names for it, and the reserved blocks are what they were when they
were taken, unless they were given back.
-/
structure Sound (make : Make) (session : Session α) : Prop where
  accounted : session.store.Accounted make session.others
  claims : ∀ buffer, session.ClaimedBy buffer
  /-- Every block was reserved once. -/
  distinct : ∀ (first second : Nat) (block other : Block), session.reserved[first]? = some block →
    session.reserved[second]? = some other → block.handle = other.handle → first = second
  /-- A reserved block says truly how long it is. -/
  sized : ∀ block ∈ session.reserved, ∀ values,
    session.store.accelerator.pool.blocks.get? block.handle = some values →
      values.size = block.length

omit [Arithmetic α] in
theorem holders_pos_iff {buffer : BufferId} :
    0 < session.holders buffer ↔ session.Refers buffer := by
  rw [holders, Refers, ← standing_pos_iff, ← standing_pos_iff]
  omega

omit [Arithmetic α] in
/-- Exactly the buffers to which the user refers are live. -/
theorem Sound.live_iff
    (sound : session.Sound make)
    (buffer : BufferId) :
    (∃ claim, session.store.claim? buffer = some claim) ↔ session.Refers buffer := by
  rw [← holders_pos_iff]
  rcases sound.claims buffer with ⟨gone, none⟩ | ⟨length, claimed⟩
  · rw [gone, none]
    simp
  · have wanted := sound.accounted.valid.wanted buffer _ claimed
    have leased : standing session.leases buffer ≤ session.holders buffer := Nat.le_add_left ..
    refine iff_of_true ⟨_, claimed⟩ ?_
    rcases wanted with held | leases
    · exact held
    · exact Nat.lt_of_lt_of_le leases leased

theorem Sound.exists_reading
    (sound : session.Sound make)
    {buffer : BufferId}
    (refers : session.Refers buffer) :
    ∃ values, session.store.reading? buffer = some values := by
  obtain ⟨claim, claimed⟩ := (sound.live_iff buffer).2 refers
  obtain ⟨values, reads, -⟩ := Store.exists_reading sound.accounted.valid claimed
  exact ⟨values, reads⟩

/-! ## What a request leaves behind -/

/-- What a request is to do to the things for which there are names. -/
structure Effect (α : Type) where
  /-- What becomes of the contents of each buffer. -/
  change : BufferId → Array α → Array α
  /-- The buffers for which a name is given up. -/
  released : Set BufferId
  /-- The reserved block that is given back. -/
  returned : Option Nat

/-- Nothing is done. -/
def Effect.nothing : Effect α where
  change _ old := old
  released := ∅
  returned := none

/-- The contents of the buffer with a name are replaced. -/
def writing (session : Session α) (name : Nat) (change : Array α → Array α) : Effect α where
  change buffer old := if session.buffers[name]? = some (some buffer) then change old else old
  released := ∅
  returned := none

/-- Names for buffers are given up. -/
def Effect.releasing (buffers : Set BufferId) : Effect α :=
  { Effect.nothing with released := buffers }

/--
A request leaves a sound session behind and has a given effect.  No buffer is
lost but by giving up a name for it, and buffers read as the effect says.  The
reserved blocks stay as they are, but for one that may be given back.
-/
structure Step
    (make : Make)
    (effect : Effect α)
    (session after : Session α) : Prop where
  sound : after.Sound make
  refers : ∀ buffer, session.Refers buffer → buffer ∉ effect.released → after.Refers buffer
  readings : ∀ buffer old, session.Refers buffer → after.Refers buffer →
    session.store.reading? buffer = some old →
    after.store.reading? buffer = some (effect.change buffer old)
  reserved : ∀ (index : Nat) (block : Block), session.reserved[index]? = some block →
    after.reserved[index]? = some block
  blocks : ∀ (index : Nat) (block : Block), session.reserved[index]? = some block →
    effect.returned ≠ some index →
    after.store.accelerator.pool.blocks.get? block.handle =
      session.store.accelerator.pool.blocks.get? block.handle

omit [Arithmetic α] in
theorem mem_others
    {block : Block}
    (member : block ∈ session.reserved) :
    (block.handle, session.store.accelerator.pool.blocks.get? block.handle) ∈ session.others :=
  ⟨block, member, rfl⟩

omit [Arithmetic α] in
/-- Where the store keeps what others hold, the reserved blocks are as they were. -/
theorem get?_of_accounted
    (accounted : after.store.Accounted make session.others)
    {block : Block}
    (member : block ∈ session.reserved) :
    after.store.accelerator.pool.blocks.get? block.handle =
      session.store.accelerator.pool.blocks.get? block.handle :=
  (accounted.held _ _ (mem_others member)).1

omit [Arithmetic α] in
theorem others_of_accounted
    (accounted : after.store.Accounted make session.others)
    (reserved : after.reserved = session.reserved) :
    after.others = session.others := by
  ext entry
  unfold others
  rw [reserved]
  refine exists_congr fun block => and_congr_right fun member => ?_
  rw [get?_of_accounted accounted member]

/-- A request that keeps what others hold and the names in step with the claims. -/
theorem Step.of_accounted
    {effect : Effect α}
    (sound : session.Sound make)
    (accounted : after.store.Accounted make session.others)
    (reserved : after.reserved = session.reserved)
    (claims : ∀ buffer, after.ClaimedBy buffer)
    (refers : ∀ buffer, session.Refers buffer → buffer ∉ effect.released → after.Refers buffer)
    (readings : ∀ buffer old, session.Refers buffer → after.Refers buffer →
      session.store.reading? buffer = some old →
      after.store.reading? buffer = some (effect.change buffer old)) :
    Step make effect session after where
  sound :=
    { accounted := by
        rw [others_of_accounted accounted reserved]
        exact accounted
      claims := claims
      distinct := by
        rw [reserved]
        exact sound.distinct
      sized := by
        rw [reserved]
        intro block member values live
        rw [get?_of_accounted accounted member] at live
        exact sound.sized block member values live }
  refers := refers
  readings := readings
  reserved index block found := by rw [reserved, found]
  blocks _ _ found _ := get?_of_accounted accounted (Array.mem_of_getElem? found)

/-- A step under which fewer buffers are given up. -/
theorem Step.mono
    {effect : Effect α}
    {released : Set BufferId}
    (step : Step make effect session after)
    (more : effect.released ⊆ released) :
    Step make { effect with released := released } session after where
  sound := step.sound
  refers buffer known unreleased := step.refers buffer known fun given => unreleased (more given)
  readings := step.readings
  reserved := step.reserved
  blocks := step.blocks

theorem Step.refl (sound : session.Sound make) : Step make .nothing session session :=
  .of_accounted sound sound.accounted rfl sound.claims (fun _ known _ => known)
    fun _ _ _ _ reads => reads

/-- The names and the claims stay the same. -/
theorem claimedBy_of_frame
    {written : Set BufferId}
    {store : Store α}
    (sound : session.Sound make)
    (frame : Frame ∅ written session.store store)
    (buffer : BufferId) :
    ClaimedBy { session with store := store } buffer := by
  unfold ClaimedBy
  rw [frame.claims buffer (Set.notMem_empty _)]
  exact sound.claims buffer

/-! ## Requests that concern the store alone -/

section

variable
    {β : Type}
    {action : Store.Action α β}

omit [Arithmetic α] in
theorem ends_onStore_iff
    {done : β → Session α → Prop}
    {failed : Error → Session α → Prop} :
    Ends (onStore action) session done failed ↔
      Ends action session.store (fun answer store => done answer { session with store := store })
        (fun reason store => failed reason { session with store := store }) := by
  unfold Ends onStore
  cases action session.store <;> rfl

/-- A step of the store that leaves all readings alone. -/
theorem Step.of_frame
    {store : Store α}
    (sound : session.Sound make)
    (accounted : store.Accounted make session.others)
    (frame : Frame ∅ ∅ session.store store) :
    Step make .nothing session { session with store := store } :=
  .of_accounted sound accounted rfl (claimedBy_of_frame sound frame) (fun _ known _ => known)
    fun buffer _ _ _ reads =>
      (frame.readings buffer (Set.notMem_empty _) (Set.notMem_empty _)).trans reads

/-- A step of the store that changes what one named buffer reads as. -/
theorem Step.of_written
    {store : Store α}
    {name : Nat}
    {buffer : BufferId}
    {change : Array α → Array α}
    (sound : session.Sound make)
    (stands : session.buffers[name]? = some (some buffer))
    (accounted : store.Accounted make session.others)
    (frame : Frame ∅ {buffer} session.store store)
    (reads : ∀ old, session.store.reading? buffer = some old →
      store.reading? buffer = some (change old)) :
    Step make (session.writing name change) session { session with store := store } := by
  refine .of_accounted sound accounted rfl (claimedBy_of_frame sound frame)
    (fun _ known _ => known) ?_
  intro other old _ _ before
  show store.reading? other =
    some (if session.buffers[name]? = some (some other) then change old else old)
  rw [stands]
  by_cases same : buffer = other
  · subst same
    rw [if_pos rfl, reads old before]
  · rw [if_neg (by simpa using same), ← before]
    exact frame.readings other (Set.notMem_empty _) (Ne.symm same)

end

/-! ## Requests that concern one name -/

omit [Arithmetic α] in
theorem ends_named
    {name : Nat}
    {done : BufferId → Session α → Prop}
    {failed : Error → Session α → Prop}
    (present : ∀ buffer, session.buffers[name]? = some (some buffer) → done buffer session)
    (absent : failed (.inconsistency (.missingName name)) session) :
    Ends (named name) session done failed := by
  unfold named
  rw [ends_bind_iff, ends_get_iff]
  split
  next buffer stands => exact present buffer stands
  · exact absent

/-- The names for one buffer change, and the claim on it with them. -/
theorem Step.of_names
    {store : Store α}
    {buffers leases : Array (Option BufferId)}
    {buffer : BufferId}
    {released : Set BufferId}
    (sound : session.Sound make)
    (accounted : store.Accounted make session.others)
    (frame : Frame {buffer} ∅ session.store store)
    (same : ∀ other, other ≠ buffer → standing buffers other = standing session.buffers other ∧
      standing leases other = standing session.leases other)
    (claimed : ClaimedBy ⟨store, buffers, leases, session.reserved⟩ buffer)
    (refers : session.Refers buffer → buffer ∉ released →
      Refers ⟨store, buffers, leases, session.reserved⟩ buffer)
    (reads : session.Refers buffer → Refers ⟨store, buffers, leases, session.reserved⟩ buffer →
      store.reading? buffer = session.store.reading? buffer) :
    Step make (.releasing released) session ⟨store, buffers, leases, session.reserved⟩ := by
  refine .of_accounted sound accounted rfl (fun other => ?_) (fun other known unreleased => ?_)
    fun other old before later read => ?_
  · by_cases equal : other = buffer
    · rw [equal]
      exact claimed
    · obtain ⟨named, leased⟩ := same other equal
      have kept := sound.claims other
      unfold ClaimedBy holders at kept ⊢
      rwa [frame.claims other equal, named, leased]
  · by_cases equal : other = buffer
    · rw [equal] at known unreleased ⊢
      exact refers known unreleased
    · obtain ⟨named, leased⟩ := same other equal
      rw [← holders_pos_iff] at known ⊢
      unfold holders at known ⊢
      rwa [named, leased]
  · by_cases equal : other = buffer
    · subst equal
      exact (reads before later).trans read
    · exact (frame.readings other equal (Set.notMem_empty _)).trans read

/-- A buffer that the user does not know yet gets a name. -/
theorem Step.of_new
    {store : Store α}
    {buffer : BufferId}
    {length : Nat}
    (sound : session.Sound make)
    (accounted : store.Accounted make session.others)
    (frame : Frame {buffer} ∅ session.store store)
    (absent : session.store.claim? buffer = none)
    (fresh : store.claim? buffer = some (.fresh length)) :
    ¬ session.Refers buffer ∧
      Step make .nothing session
        { session with store := store, buffers := session.buffers.push (some buffer) } := by
  have unknown : ¬ session.Refers buffer := by
    rw [← sound.live_iff, absent]
    simp
  have none : session.holders buffer = 0 :=
    Nat.eq_zero_of_not_pos fun some => unknown (holders_pos_iff.1 some)
  refine ⟨unknown, .of_names sound accounted frame (fun other different => ⟨?_, rfl⟩) (.inr ?_)
    (fun known _ => absurd known unknown) fun known => absurd known unknown⟩
  · rw [standing_push_some, if_neg (Ne.symm different), Nat.add_zero]
  · refine ⟨length, fresh.trans (congrArg some ?_)⟩
    unfold holders at none ⊢
    simp only [Claim.fresh, Claim.mk.injEq, true_and, standing_push_some, if_true]
    omega

theorem ends_share
    (sound : session.Sound make)
    (index : Nat) :
    Ends (perform (.share index)) session
      (fun _ after => Step make .nothing session after)
      (fun _ after => Step make .nothing session after) := by
  show Ends (named index >>= _) session _ _
  rw [ends_bind_iff]
  refine ends_named (fun buffer stands => ?_) (.refl sound)
  rw [ends_bind_iff, ends_modify_iff, name, ends_modifyGet_iff]
  have valid := sound.accounted.valid
  refine .of_names sound sound.accounted.hold (frame_hold valid) (fun other different => ⟨?_, rfl⟩)
    ?_ (fun _ _ => .inl (Array.mem_push_self ..)) fun _ _ => ?_
  · rw [standing_push_some, if_neg (Ne.symm different), Nat.add_zero]
  · obtain ⟨claim, claimed⟩ := (sound.live_iff buffer).2 (.inl (mem_of_stands stands))
    rcases sound.claims buffer with ⟨gone, -⟩ | ⟨length, held⟩
    · rw [gone] at claimed
      cases claimed
    · refine .inr ⟨length, ?_⟩
      show (session.store.revised buffer _).claim? buffer = _
      rw [claim?_revised revises_hold, if_pos rfl, held, Option.map_some]
      simp only [Claim.hold, holders, standing_push_some, if_true, Option.some.injEq,
        Claim.mk.injEq, true_and, and_true]
      omega
  · exact congrFun (reading?_revised revises_hold) buffer

/-- A name for a buffer is given up. -/
theorem ends_drop
    (sound : session.Sound make)
    (index : Nat) :
    Ends (perform (.drop index)) session
      (fun _ after => Step make
        (.releasing { buffer | session.buffers[index]? = some (some buffer) }) session after)
      (fun _ after => Step make .nothing session after) := by
  show Ends (named index >>= _) session _ _
  rw [ends_bind_iff]
  refine ends_named (fun buffer stands => ?_) (.refl sound)
  rw [ends_bind_iff, ends_modify_iff]
  have valid := sound.accounted.valid
  have fewer := standing_set_none stands
  have one := fewer buffer
  rw [if_pos rfl] at one
  obtain ⟨claim, claimed⟩ := (sound.live_iff buffer).2 (.inl (mem_of_stands stands))
  rcases sound.claims buffer with ⟨gone, -⟩ | ⟨length, held⟩
  · rw [gone] at claimed
    cases claimed
  obtain ⟨frame, last⟩ := frame_drop valid held
  have wanted_iff : (Claim.drop ⟨length, session.holders buffer,
      standing session.leases buffer⟩).Wanted ↔
      0 < standing (session.buffers.setIfInBounds index none) buffer +
        standing session.leases buffer := by
    unfold Claim.Wanted Claim.drop holders
    dsimp only
    omega
  refine .of_names sound sound.accounted.drop frame (fun other different => ⟨?_, rfl⟩) ?_
    (fun _ kept => absurd stands kept) fun _ later => ?_
  · have same := fewer other
    rw [if_neg (Ne.symm different)] at same
    exact same.symm
  · by_cases wanted : (Claim.drop ⟨length, session.holders buffer,
        standing session.leases buffer⟩).Wanted
    · refine .inr ⟨length, ?_⟩
      rw [last, if_pos wanted]
      simp only [Claim.drop, holders, Option.some.injEq, Claim.mk.injEq, true_and, and_true]
      omega
    · refine .inl ⟨by rw [last, if_neg wanted], ?_⟩
      exact Nat.eq_zero_of_not_pos fun some => wanted (wanted_iff.2 some)
  · have wanted := wanted_iff.2 (holders_pos_iff.2 later)
    exact congrFun (contents?_reclaim revises_drop held wanted).2 buffer

/-- A lease under a new name. -/
theorem ends_leaseNext
    (sound : session.Sound make)
    (name : Nat)
    (tier : Tier) :
    Ends (leaseNext name tier) session
      (fun index after => Step make .nothing session after ∧
        ∃ buffer, session.buffers[name]? = some (some buffer) ∧
          after.leases[index]? = some (some buffer) ∧ after.store.OnTier buffer tier)
      (fun _ after => Step make .nothing session after) := by
  have reserved : (session.leases.push none)[session.leases.size]? = some none :=
    Array.getElem?_push_size
  -- a name that stands for nothing changes no claim
  have waiting : ∀ {store : Store α}, store.Accounted make session.others →
      Frame ∅ ∅ session.store store →
      Step make .nothing session
        { session with store := store, leases := session.leases.push none } := by
    intro store accounted frame
    refine .of_accounted sound accounted rfl (fun buffer => ?_)
      (fun _ known _ => known.imp_right (Array.mem_push_of_mem _)) fun buffer old _ _ reads => ?_
    · have claims := claimedBy_of_frame sound frame buffer
      unfold ClaimedBy holders at claims ⊢
      rwa [standing_push_none]
    · exact (frame.readings buffer (Set.notMem_empty _) (Set.notMem_empty _)).trans reads
  have valid := sound.accounted.valid
  unfold leaseNext
  rw [ends_bind_iff, reserveLease, ends_modifyGet_iff, ends_bind_iff]
  refine ends_named (fun buffer stands => ?_) (waiting sound.accounted (.refl valid))
  rw [ends_bind_iff, ends_onStore_iff]
  refine ((accounted_lease session.store sound.accounted).and (ends_lease valid)).mono ?_ ?_
  · rintro _ store ⟨accounted, middle, frame, onTier, rfl⟩
    rw [ends_bind_iff, ends_modify_iff]
    have pinned : Frame {buffer} ∅ middle (middle.pin buffer) := frame_pin frame.valid
    have held : Frame {buffer} ∅ (middle.pin buffer) ((middle.pin buffer).hold buffer) :=
      frame_hold pinned.valid
    have whole : Frame {buffer} ∅ session.store ((middle.pin buffer).hold buffer) := by
      have both := (frame.trans_empty pinned).trans held
      rwa [Set.union_self, Set.union_self] at both
    have same : ((middle.pin buffer).hold buffer).reading? = middle.reading? :=
      (reading?_revised revises_hold).trans reading?_pin
    have contents : ((middle.pin buffer).hold buffer).contents? = middle.contents? :=
      (contents?_revised revises_hold).trans contents?_pin
    refine ⟨.of_names sound accounted.hold whole (fun other different => ⟨rfl, ?_⟩) ?_
      (fun known _ => .inl (mem_of_stands stands)) fun _ _ => ?_, buffer, stands, ?_, ?_⟩
    · rw [standing_set_some reserved, standing_push_none, if_neg (Ne.symm different), Nat.add_zero]
    · obtain ⟨claim, claimed⟩ := (sound.live_iff buffer).2 (.inl (mem_of_stands stands))
      rcases sound.claims buffer with ⟨gone, -⟩ | ⟨length, before⟩
      · rw [gone] at claimed
        cases claimed
      · refine .inr ⟨length, ?_⟩
        show ((middle.pin buffer).revised buffer _).claim? buffer = _
        rw [claim?_revised revises_hold, if_pos rfl, claim?_pin, if_pos rfl,
          frame.claims buffer (Set.notMem_empty _), before]
        simp only [Option.map_some, Claim.pin, Claim.hold, holders, standing_set_some reserved,
          standing_push_none, if_true, Nat.add_assoc]
    · rw [same]
      exact frame.readings buffer (Set.notMem_empty _) (Set.notMem_empty _)
    · have inside : session.leases.size < (session.leases.push none).size := by simp
      show ((session.leases.push none).setIfInBounds session.leases.size (some buffer))[
        session.leases.size]? = _
      rw [Array.getElem?_setIfInBounds_self_of_lt inside]
    · obtain ⟨kept, stored, tiered⟩ := onTier
      exact ⟨kept, by rw [contents]; exact stored, tiered⟩
  · rintro _ store ⟨accounted, frame⟩
    exact waiting accounted frame

/-- A lease ends. -/
theorem step_endLease
    (sound : session.Sound make)
    (lease : Nat) :
    Step make (.releasing { buffer | session.leases[lease]? = some (some buffer) }) session
      (endLease lease session) := by
  unfold endLease
  split
  next buffer stands =>
    have valid := sound.accounted.valid
    have fewer := standing_set_none stands
    have one := fewer buffer
    rw [if_pos rfl] at one
    obtain ⟨claim, claimed⟩ := (sound.live_iff buffer).2 (.inr (mem_of_stands stands))
    rcases sound.claims buffer with ⟨gone, -⟩ | ⟨length, held⟩
    · rw [gone] at claimed
      cases claimed
    have stays : (Claim.unpin ⟨length, session.holders buffer,
        standing session.leases buffer⟩).Wanted := by
      refine .inl ?_
      show 0 < session.holders buffer
      unfold holders
      omega
    obtain ⟨unpinned, middle⟩ := frame_unpin valid held
    rw [if_pos stays] at middle
    obtain ⟨dropped, last⟩ := frame_drop unpinned.valid middle
    have wanted_iff : (Claim.drop (Claim.unpin ⟨length, session.holders buffer,
        standing session.leases buffer⟩)).Wanted ↔
        0 < standing session.buffers buffer +
          standing (session.leases.setIfInBounds lease none) buffer := by
      unfold Claim.Wanted Claim.drop Claim.unpin holders
      dsimp only
      omega
    have whole : Frame {buffer} ∅ session.store ((session.store.unpin buffer).drop buffer) := by
      have both := unpinned.trans dropped
      rwa [Set.union_self, Set.union_self] at both
    refine .of_names sound sound.accounted.unpin.drop whole (fun other different => ⟨rfl, ?_⟩) ?_
      (fun _ kept => absurd stands kept) fun _ later => ?_
    · have same := fewer other
      rw [if_neg (Ne.symm different)] at same
      exact same.symm
    · by_cases wanted : (Claim.drop (Claim.unpin ⟨length, session.holders buffer,
          standing session.leases buffer⟩)).Wanted
      · refine .inr ⟨length, ?_⟩
        rw [last, if_pos wanted]
        simp only [Claim.drop, Claim.unpin, holders, Option.some.injEq, Claim.mk.injEq, true_and]
        omega
      · refine .inl ⟨by rw [last, if_neg wanted], ?_⟩
        exact Nat.eq_zero_of_not_pos fun some => wanted (wanted_iff.2 some)
    · have wanted := wanted_iff.2 (holders_pos_iff.2 later)
      have first := congrFun (contents?_reclaim revises_unpin held stays).2 buffer
      exact (congrFun (contents?_reclaim revises_drop middle wanted).2 buffer).trans first
  · exact (Step.refl sound).mono (Set.empty_subset _)

/-- Buffers that are made and dropped at once leave no trace but in the registry. -/
theorem accounted_churned
    {others : Others α}
    {store : Store α}
    (accounted : store.Accounted make others)
    (length count : Nat) :
    (churned length count store).Accounted make others ∧
      Frame ∅ ∅ store (churned length count store) := by
  induction count generalizing store with
  | zero => exact ⟨accounted, .refl accounted.valid⟩
  | succ count step =>
    have fits : (Contents.empty : Contents α).Fits store.accelerator.pool length := trivial
    have made := (frame_register accounted.valid fits fun _ => nofun).1
    have absent := claim?_register_fst accounted.valid length (.empty : Contents α)
    have fresh : (store.register length .empty).2.claim? (store.register length .empty).1 =
        some (.fresh length) := by
      rw [claim?_register, if_pos rfl]
    have dropped : Frame ∅ ∅ store
        ((store.register length .empty).2.drop (store.register length .empty).1) := by
      refine (frame_drop_fresh absent ?_ fresh).1
      rw [Set.empty_union]
      exact made.mono (Set.Subset.refl _) (Set.empty_subset _)
    obtain ⟨last, rest⟩ := step (accounted.register fits fun _ => nofun).drop
    exact ⟨last, dropped.trans_empty rest⟩

/-! ## Blocks are reserved and given back -/

omit [Arithmetic α] in
/-- One more block is reserved. -/
theorem others_push
    {block : Block}
    {pool : Pool α}
    (kept : ∀ other ∈ session.reserved, pool.blocks.get? other.handle =
      session.store.accelerator.pool.blocks.get? other.handle) :
    others { session with
        store.accelerator.pool := pool
        reserved := session.reserved.push block } =
      insert (block.handle, pool.blocks.get? block.handle) session.others := by
  ext entry
  simp only [others, Array.mem_push, or_and_right, exists_or, exists_eq_left, Set.mem_ofPred_eq,
    Set.mem_insert_iff]
  rw [or_comm]
  refine or_congr_right (exists_congr fun other => and_congr_right fun member => ?_)
  rw [kept other member]

/-- A block is taken from the accelerator past the store. -/
theorem step_reserve
    (sound : session.Sound make)
    {length : Nat}
    {block : Block}
    {pool : Pool α}
    (allocated : session.store.accelerator.pool.allocate length = .ok (block, pool)) :
    Step make .nothing session
        { session with
          store.accelerator.pool := pool
          reserved := session.reserved.push block } ∧
      block.length = length ∧ pool.blocks.get? block.handle = some (zeros α length) := by
  obtain ⟨accounted, isNew⟩ := sound.accounted.allocated allocated session.store.accelerator.calls
  have valid := sound.accounted.valid
  obtain ⟨-, keeps, named, zero⟩ := Pool.allocate_eq_ok valid.named allocated
  have frame := frame_of_accelerator valid
    { session.store.accelerator with pool := pool } keeps named
  rw [behind_false] at frame
  have kept : ∀ other ∈ session.reserved, pool.blocks.get? other.handle =
      session.store.accelerator.pool.blocks.get? other.handle ∧ other.handle < block.handle := by
    intro other member
    refine ⟨(accounted.held _ _ (Set.mem_insert_of_mem _ (mem_others member))).1, ?_⟩
    rw [isNew]
    exact (sound.accounted.held _ _ (mem_others member)).2
  have lookUp : ∀ (index : Nat) (other : Block),
      (session.reserved.push block)[index]? = some other →
        (index = session.reserved.size ∧ other = block) ∨
          session.reserved[index]? = some other := by
    intro index other found
    rw [Array.getElem?_push] at found
    split at found
    next last => exact .inl ⟨last, (Option.some.inj found).symm⟩
    · exact .inr found
  refine ⟨⟨⟨?_, sound.claims, ?_, ?_⟩, fun _ known _ => known, ?_, ?_, ?_⟩, by rw [isNew], zero⟩
  · rw [others_push (fun other member => (kept other member).1), zero]
    exact accounted
  · intro first second one other foundFirst foundSecond equal
    rcases lookUp first one foundFirst with ⟨rfl, rfl⟩ | oneOld
    · rcases lookUp second other foundSecond with ⟨rfl, -⟩ | otherOld
      · rfl
      · exact absurd equal (Nat.ne_of_gt (kept other (Array.mem_of_getElem? otherOld)).2)
    · rcases lookUp second other foundSecond with ⟨rfl, rfl⟩ | otherOld
      · exact absurd equal (Nat.ne_of_lt (kept one (Array.mem_of_getElem? oneOld)).2)
      · exact sound.distinct first second one other oneOld otherOld equal
  · intro other member values live
    rcases Array.mem_push.1 member with old | rfl
    · exact sound.sized other old values ((kept other old).1.symm.trans live)
    · rw [show pool.blocks.get? other.handle = some values from live] at zero
      cases zero
      rw [size_zeros, isNew]
  · intro buffer old _ _ reads
    exact (frame.readings buffer (Set.notMem_empty _) (Set.notMem_empty _)).trans reads
  · intro index other found
    show (session.reserved.push block)[index]? = some other
    obtain ⟨inside, -⟩ := Array.getElem?_eq_some_iff.1 found
    rw [Array.getElem?_push, if_neg (Nat.ne_of_lt inside), found]
  · intro index other found _
    exact (kept other (Array.mem_of_getElem? found)).1

omit [Arithmetic α] in
/-- A block that is given back holds nothing, and the others hold what they did. -/
theorem get?_freeBlock (block : Block) (store : Store α) (handle : Nat) :
    (freeBlock block store).accelerator.pool.blocks.get? handle =
      if block.handle = handle then none else store.accelerator.pool.blocks.get? handle :=
  Pool.get?_free _ _ _

omit [Arithmetic α] in
/-- The reserved blocks are one of them and the rest. -/
theorem others_eq_insert
    (sound : session.Sound make)
    {block : Block}
    (member : block ∈ session.reserved) :
    session.others =
      insert (block.handle, session.store.accelerator.pool.blocks.get? block.handle)
        { entry | entry ∈ session.others ∧ entry.1 ≠ block.handle } := by
  ext ⟨handle, stored⟩
  refine ⟨fun inside => ?_, ?_⟩
  · by_cases same : handle = block.handle
    · subst same
      rw [(sound.accounted.held _ _ inside).1]
      exact Set.mem_insert _ _
    · exact Set.mem_insert_of_mem _ ⟨inside, same⟩
  · rintro (same | inside)
    · rw [same]
      exact mem_others member
    · exact inside.1

omit [Arithmetic α] in
/-- Of a block that is given back, the handle alone is remembered. -/
theorem others_freeBlock
    {block : Block}
    (member : block ∈ session.reserved) :
    others { session with store := freeBlock block session.store } =
      insert (block.handle, none) { entry | entry ∈ session.others ∧ entry.1 ≠ block.handle } := by
  ext ⟨handle, stored⟩
  refine ⟨?_, ?_⟩
  · rintro ⟨other, inside, same⟩
    cases same
    by_cases equal : block.handle = other.handle
    · refine .inl (Prod.ext equal.symm ?_)
      rw [get?_freeBlock, if_pos equal]
    · refine .inr ⟨?_, Ne.symm equal⟩
      rw [get?_freeBlock, if_neg equal]
      exact mem_others inside
  · rintro (same | ⟨⟨other, inside, same⟩, different⟩)
    · cases same
      exact ⟨block, member, by rw [get?_freeBlock, if_pos rfl]⟩
    · cases same
      exact ⟨other, inside, by rw [get?_freeBlock, if_neg (Ne.symm different)]⟩

theorem accounted_freeBlock
    (sound : session.Sound make)
    {block : Block}
    (member : block ∈ session.reserved) :
    (freeBlock block session.store).Accounted make
      (insert (block.handle, none)
        { entry | entry ∈ session.others ∧ entry.1 ≠ block.handle }) := by
  have before := sound.accounted
  have used := (before.held _ _ (mem_others member)).2
  rw [others_eq_insert sound member] at before
  cases live : session.store.accelerator.pool.blocks.get? block.handle with
  | none =>
    rw [live] at before
    have same : freeBlock block session.store = session.store := by
      unfold freeBlock Accelerator.free
      rw [Pool.free_of_dead live]
    rw [same]
    exact before
  | some values =>
    rw [live] at before
    have only : ∀ stored, (block.handle, stored) ∉
        { entry | entry ∈ session.others ∧ entry.1 ≠ block.handle } := fun _ inside => inside.2 rfl
    refine (before.free only (sound.sized block member values live)).remember ?_ ?_
    · rw [get?_freeBlock, if_pos rfl]
    · exact Nat.lt_of_lt_of_eq used (Pool.nextHandle_free ..).symm

/-- A reserved block is given back, if it was not before. -/
theorem step_unreserve
    (sound : session.Sound make)
    {index : Nat}
    {block : Block}
    (reserved : session.reserved[index]? = some block) :
    Step make { Effect.nothing with returned := some index } session
        { session with store := freeBlock block session.store } ∧
      (freeBlock block session.store).accelerator.pool.blocks.get? block.handle = none := by
  have member := Array.mem_of_getElem? reserved
  have frame := frame_free sound.accounted.valid (sound.accounted.unowned (mem_others member))
  refine ⟨⟨⟨?_, fun buffer => claimedBy_of_frame sound frame buffer, sound.distinct, ?_⟩,
    fun _ known _ => known, ?_, ?_, ?_⟩, ?_⟩
  · rw [others_freeBlock member]
    exact accounted_freeBlock sound member
  · intro other inside values live
    rw [get?_freeBlock] at live
    split at live
    · cases live
    · exact sound.sized other inside values live
  · intro buffer old _ _ reads
    exact (frame.readings buffer (Set.notMem_empty _) (Set.notMem_empty _)).trans reads
  · exact fun _ _ found => found
  · intro second other found different
    rw [get?_freeBlock, if_neg]
    intro equal
    exact different (congrArg some (sound.distinct index second block other reserved found equal))
  · rw [get?_freeBlock, if_pos rfl]

/-! ## Every request -/

/-- What an answered request does to the things for which there are names. -/
def effect (session : Session α) : Command α → Effect α
  | .write name values => session.writing name fun _ => values
  | .fill name value => session.writing name fun old => Array.replicate old.size value
  | .clear name => session.writing name fun old => zeros α old.size
  | .update name change => session.writing name fun old => (change _ old.toVector).toArray
  | .release name => session.writing name fun old => zeros α old.size
  | .ensure name .empty => session.writing name fun old => zeros α old.size
  | .drop name => .releasing { buffer | session.buffers[name]? = some (some buffer) }
  | .unlease lease => .releasing { buffer | session.leases[lease]? = some (some buffer) }
  | .unreserve index => { Effect.nothing with returned := some index }
  | _ => .nothing

/--
What an answer says about the contents of buffers is true.  A buffer reads as
it did when the request was made, and a lease on the host gives access to just
these values.  A new buffer is one that the user did not know.  A reserved
block is live until it is given back.
-/
def Tells (session after : Session α) : Command α → Answer α → Prop
  | .read name, answer => ∃ buffer values, session.buffers[name]? = some (some buffer) ∧
      session.store.reading? buffer = some values ∧ answer = .values values
  | .lease name tier, answer => ∃ buffer values index found,
      session.buffers[name]? = some (some buffer) ∧
      session.store.reading? buffer = some values ∧ answer = .named index ∧
      after.leased? index = some (buffer, found) ∧ found.tier = tier ∧
      (tier = .host → found.contents = .host values)
  | .allocate length, answer => ∃ index buffer, answer = .named index ∧
      ¬ session.Refers buffer ∧ after.buffers[index]? = some (some buffer) ∧
      after.store.reading? buffer = some (zeros α length)
  | .allocateFrom values, answer => ∃ index buffer, answer = .named index ∧
      ¬ session.Refers buffer ∧ after.buffers[index]? = some (some buffer) ∧
      after.store.reading? buffer = some values
  | .reserve length, answer => ∀ index, answer = .named index → ∃ block,
      after.reserved[index]? = some block ∧ block.length = length ∧
      after.store.accelerator.pool.blocks.get? block.handle = some (zeros α length)
  | .unreserve index, _ => ∀ block, session.reserved[index]? = some block →
      after.store.accelerator.pool.blocks.get? block.handle = none
  | _, _ => True

/-- A lease that stands gives access to what its buffer reads as. -/
theorem Step.leased
    {name index : Nat}
    {tier : Tier}
    {buffer : BufferId}
    (step : Step make .nothing session after)
    (sound : session.Sound make)
    (stands : session.buffers[name]? = some (some buffer))
    (leased : after.leases[index]? = some (some buffer))
    (onTier : after.store.OnTier buffer tier) :
    session.Tells after (.lease name tier) (.named index) := by
  have known : session.Refers buffer := .inl (mem_of_stands stands)
  obtain ⟨values, reads⟩ := sound.exists_reading known
  have readsAfter := step.readings buffer values known (.inr (mem_of_stands leased)) reads
  obtain ⟨contents, held, tiered⟩ := onTier
  obtain ⟨found, present, rfl⟩ := Option.map_eq_some_iff.1 held
  refine ⟨buffer, values, index, found, stands, reads, rfl, ?_, tiered, fun onHost => ?_⟩
  · simp only [leased?, leased, present, Option.bind_eq_bind, Option.bind_some, Option.pure_def]
  · subst onHost
    cases stored : found.contents <;> rw [stored] at tiered <;> cases tiered
    simp only [reading?, present, stored, Option.bind_eq_bind, Option.bind_some] at readsAfter
    rw [Option.some.inj readsAfter]
    rfl

/-- A live buffer reads as an array of its length. -/
theorem size_of_reading
    {store : Store α}
    (valid : store.Valid)
    {buffer : BufferId}
    {claim : Claim}
    {values : Array α}
    (claimed : store.claim? buffer = some claim)
    (reads : store.reading? buffer = some values) :
    values.size = claim.length := by
  obtain ⟨others, same, size⟩ := Store.exists_reading valid claimed
  rw [reads] at same
  cases same
  exact size

/-- A request for a new buffer with given values. -/
theorem ends_new
    {action : Store.Action α BufferId}
    {values : Array α}
    {length bound : Nat}
    (sound : session.Sound make)
    (upholds : Preserves (Accounted make session.others) action)
    (ends : Ends action session.store
      (fun buffer after => session.store.claim? buffer = none ∧
        Frame {buffer} ∅ session.store after ∧ after.claim? buffer = some (.fresh length) ∧
        after.reading? buffer = some values ∧ bound ≤ buffer.index)
      (fun _ _ => False)) :
    Ends (onStore action >>= name) session
      (fun answer after => Step make .nothing session after ∧ ∃ index buffer,
        answer = .named index ∧ ¬ session.Refers buffer ∧
        after.buffers[index]? = some (some buffer) ∧ after.store.reading? buffer = some values)
      (fun _ after => Step make .nothing session after) := by
  rw [ends_bind_iff, ends_onStore_iff]
  refine ((upholds _ sound.accounted).and ends).mono ?_ fun _ _ never => never.2.elim
  rintro buffer store ⟨accounted, absent, frame, fresh, reads, -⟩
  obtain ⟨unknown, step⟩ := Step.of_new sound accounted frame absent fresh
  exact ⟨step, session.buffers.size, buffer, rfl, unknown, Array.getElem?_push_size, reads⟩

section

variable
    {β : Type}
    {action : BufferId → Store.Action α β}
    {result : β → Answer α}
    {name : Nat}

/-- A request to a named buffer that leaves all readings alone. -/
theorem ends_named_still
    {told : BufferId → β → Prop}
    (sound : session.Sound make)
    (upholds : ∀ buffer, Preserves (Accounted make session.others) (action buffer))
    (ends : ∀ buffer, Ends (action buffer) session.store
      (fun answer after => Frame ∅ ∅ session.store after ∧ told buffer answer)
      (fun _ after => Frame ∅ ∅ session.store after)) :
    Ends
      (do
        let buffer ← named name
        let answer ← onStore (action buffer)
        return result answer) session
      (fun answer after => Step make .nothing session after ∧ ∃ buffer plain,
        session.buffers[name]? = some (some buffer) ∧ told buffer plain ∧ answer = result plain)
      (fun _ after => Step make .nothing session after) := by
  rw [ends_bind_iff]
  refine ends_named (fun buffer stands => ?_) (.refl sound)
  rw [ends_bind_iff, ends_onStore_iff]
  refine ((upholds buffer _ sound.accounted).and (ends buffer)).mono ?_ ?_
  · rintro answer store ⟨accounted, frame, holds⟩
    exact ⟨.of_frame sound accounted frame, buffer, answer, stands, holds, rfl⟩
  · rintro _ store ⟨accounted, frame⟩
    exact .of_frame sound accounted frame

/-- A request to a named buffer that changes what it reads as, if it is answered. -/
theorem ends_named_writing
    {change : Array α → Array α}
    (sound : session.Sound make)
    (upholds : ∀ buffer, Preserves (Accounted make session.others) (action buffer))
    (ends : ∀ buffer, Ends (action buffer) session.store
      (fun _ after => Frame ∅ {buffer} session.store after ∧
        ∀ old, session.store.reading? buffer = some old →
          after.reading? buffer = some (change old))
      (fun _ after => Frame ∅ ∅ session.store after)) :
    Ends
      (do
        let buffer ← named name
        let answer ← onStore (action buffer)
        return result answer) session
      (fun _ after => Step make (session.writing name change) session after ∧ True)
      (fun _ after => Step make .nothing session after) := by
  rw [ends_bind_iff]
  refine ends_named (fun buffer stands => ?_) (.refl sound)
  rw [ends_bind_iff, ends_onStore_iff]
  refine ((upholds buffer _ sound.accounted).and (ends buffer)).mono ?_ ?_
  · rintro _ store ⟨accounted, frame, reads⟩
    exact ⟨.of_written sound stands accounted frame reads, trivial⟩
  · rintro _ store ⟨accounted, frame⟩
    exact .of_frame sound accounted frame

end

/-- A buffer that is filled or released reads as one value throughout. -/
theorem reads_replicate
    {store after : Store α}
    (valid : store.Valid)
    {buffer : BufferId}
    {value : α}
    (reads : ∃ held, store.claim? buffer = some held ∧
      after.reading? buffer = some (Array.replicate held.length value)) :
    ∀ old, store.reading? buffer = some old →
      after.reading? buffer = some (Array.replicate old.size value) := by
  obtain ⟨held, claimed, filled⟩ := reads
  intro old before
  rw [size_of_reading valid claimed before, filled]

/-- Filling a buffer replaces all its values by one. -/
theorem ends_fill_replicate
    {store : Store α}
    (valid : store.Valid)
    (value : α)
    (buffer : BufferId) :
    Ends (Store.fill buffer value) store
      (fun _ after => Frame ∅ {buffer} store after ∧
        ∀ old, store.reading? buffer = some old →
          after.reading? buffer = some (Array.replicate old.size value))
      (fun _ after => Frame ∅ ∅ store after) :=
  (ends_fill valid value).mono (fun _ _ done => ⟨done.1, reads_replicate valid done.2⟩)
    fun _ _ frame => frame

/-- A buffer that is released reads as zero throughout. -/
theorem ends_release_zeros
    {store : Store α}
    (valid : store.Valid)
    (buffer : BufferId) :
    Ends (Store.release buffer) store
      (fun _ after => Frame ∅ {buffer} store after ∧
        ∀ old, store.reading? buffer = some old → after.reading? buffer = some (zeros α old.size))
      (fun _ after => Frame ∅ ∅ store after) :=
  (ends_release valid).mono (fun _ _ done => ⟨done.1, reads_replicate valid done.2⟩)
    fun _ _ frame => frame

/-- What every request leaves behind. -/
theorem ends_perform
    (sound : session.Sound make)
    (command : Command α) :
    Ends (perform command) session
      (fun answer after => Step make (session.effect command) session after ∧
        session.Tells after command answer)
      (fun _ after => Step make .nothing session after) := by
  have valid := sound.accounted.valid
  cases command with
  | allocate length =>
    exact ends_new sound (accounted_allocate length) (ends_allocate valid length)
  | allocateFrom values =>
    exact ends_new sound (accounted_allocateFrom values) (ends_allocateFrom valid values)
  | churn count length =>
    obtain ⟨accounted, frame⟩ := accounted_churned sound.accounted length count
    exact ⟨Step.of_frame sound accounted frame, trivial⟩
  | share index =>
    exact (ends_share sound index).mono (fun _ _ step => ⟨step, trivial⟩) fun _ _ step => step
  | drop index =>
    exact (ends_drop sound index).mono (fun _ _ step => ⟨step, trivial⟩) fun _ _ step => step
  | ensure index tier =>
    have moves : tier ≠ .empty → ∀ buffer, Ends (Store.ensure buffer tier) session.store
        (fun _ after => Frame ∅ ∅ session.store after ∧ True)
        (fun _ after => Frame ∅ ∅ session.store after) := fun stored _ =>
      (ends_ensure valid stored).mono (fun _ _ frame => ⟨frame, trivial⟩) fun _ _ frame => frame
    cases tier with
    | empty => exact ends_named_writing sound (fun _ => accounted_ensure) (ends_release_zeros valid)
    | host =>
      exact (ends_named_still sound (fun _ => accounted_ensure) (moves (by rintro ⟨⟩))).mono
        (fun _ _ done => ⟨done.1, trivial⟩) fun _ _ step => step
    | accelerator =>
      exact (ends_named_still sound (fun _ => accounted_ensure) (moves (by rintro ⟨⟩))).mono
        (fun _ _ done => ⟨done.1, trivial⟩) fun _ _ step => step
  | release index =>
    exact ends_named_writing sound (fun _ => accounted_release) (ends_release_zeros valid)
  | offload target device =>
    show Ends (onStore (Store.offload target device) >>= _) session _ _
    rw [ends_bind_iff, ends_onStore_iff]
    refine ((accounted_offload _ sound.accounted).and (ends_offload valid target device)).mono ?_
      fun _ _ failed => failed.2.elim
    rintro _ store ⟨accounted, frame, -⟩
    exact ⟨Step.of_frame sound accounted frame, trivial⟩
  | read index =>
    refine (ends_named_still sound (fun _ => accounted_read) fun _ => ends_read valid).mono ?_
      fun _ _ step => step
    rintro _ _ ⟨step, buffer, values, stands, reads, rfl⟩
    exact ⟨step, buffer, values, stands, reads, rfl⟩
  | write index values =>
    refine ends_named_writing sound (fun _ => accounted_write values) fun _ => ?_
    exact (ends_write valid values).mono (fun _ _ done => ⟨done.1, fun _ _ => done.2.1⟩)
      fun _ _ frame => frame
  | fill index value =>
    exact ends_named_writing sound (fun _ => accounted_fill value) (ends_fill_replicate valid value)
  | clear index =>
    exact ends_named_writing sound (fun _ => accounted_clear)
      (ends_fill_replicate valid Arithmetic.zero)
  | update index change =>
    refine ends_named_writing sound (fun _ => accounted_update change) fun buffer => ?_
    refine (ends_update valid change).mono ?_ fun _ _ frame => frame
    rintro _ store ⟨frame, values, reads, -, updated⟩
    refine ⟨frame, fun old before => ?_⟩
    rw [reads] at before
    cases before
    exact updated
  | lease index tier =>
    show Ends (leaseNext index tier >>= _) session _ _
    rw [ends_bind_iff]
    refine (ends_leaseNext sound index tier).mono ?_ fun _ _ failed => failed
    rintro _ _ ⟨step, buffer, stands, leased, onTier⟩
    exact ⟨step, step.leased sound stands leased onTier⟩
  | unlease lease =>
    exact ⟨step_endLease sound lease, trivial⟩
  | reserve length =>
    show Ends (get >>= _) session _ _
    rw [ends_bind_iff, ends_get_iff]
    split
    next block pool allocated =>
      obtain ⟨step, long, live⟩ := step_reserve sound allocated
      refine ⟨step, fun index same => ⟨block, ?_, long, live⟩⟩
      cases same
      exact Array.getElem?_push_size
    · exact ⟨.refl sound, by rintro _ ⟨⟩⟩
  | unreserve index =>
    show Ends (get >>= _) session _ _
    rw [ends_bind_iff, ends_get_iff]
    split
    next block reserved =>
      obtain ⟨step, dead⟩ := step_unreserve sound reserved
      refine ⟨step, fun other found => ?_⟩
      rw [reserved] at found
      cases found
      exact dead
    · exact .refl sound

/-! ## What requests answer -/

section

variable
    {command : Command α}
    {done : Answer α → Session α → Prop}
    {failed : Error → Session α → Prop}

/-- What holds of the reason for which a request is refused. -/
theorem step_of_error
    {reason : Error}
    (ends : Ends (perform command) session done failed)
    (refused : (session.step command).1 = .error reason) :
    failed reason (session.step command).2 := by
  unfold Ends at ends
  unfold Session.step at refused ⊢
  split at ends
  next outcome =>
    rw [outcome] at refused
    cases refused
  next outcome =>
    rw [outcome] at refused ⊢
    cases refused
    exact ends

/-- What holds of the answer to a request. -/
theorem step_of_ok
    {answer : Answer α}
    (ends : Ends (perform command) session done failed)
    (answered : (session.step command).1 = .ok answer) :
    done answer (session.step command).2 := by
  unfold Ends at ends
  unfold Session.step at answered ⊢
  split at ends
  next outcome =>
    rw [outcome] at answered ⊢
    cases answered
    exact ends
  next outcome =>
    rw [outcome] at answered
    cases answered

/-- What a request leads to in any case holds after a step. -/
theorem step_of_ends
    {holds : Session α → Prop}
    (ends : Ends (perform command) session (fun _ after => holds after)
      fun _ after => holds after) :
    holds (session.step command).2 := by
  cases outcome : (session.step command).1 with
  | ok answer => exact step_of_ok ends outcome
  | error reason => exact step_of_error ends outcome

/-- A request that cannot be answered is refused. -/
theorem step_eq_error
    (ends : Ends (perform command) session (fun _ _ => False) failed) :
    ∃ reason, (session.step command).1 = .error reason ∧
      failed reason (session.step command).2 := by
  cases outcome : (session.step command).1 with
  | ok answer => exact (step_of_ok ends outcome).elim
  | error reason => exact ⟨reason, rfl, step_of_error ends outcome⟩

end

/-- What a step does to the things for which there are names, by its answer. -/
def effectOf
    (session : Session α)
    (command : Command α) : Except Error (Answer α) → Effect α
  | .ok _ => session.effect command
  | .error _ => .nothing

/-- What every request of a run keeps holds after the run. -/
theorem run_of_preserves
    {holds : Session α → Prop}
    {commands : List (Command α)}
    (each : ∀ command ∈ commands, Preserves holds (perform command))
    (held : holds session) :
    holds (session.run commands) := by
  induction commands generalizing session with
  | nil => exact held
  | cons command commands rest =>
    refine rest (fun other member => each other (List.mem_cons_of_mem _ member)) ?_
    exact step_of_ends (each command List.mem_cons_self session held)

/-- A step of a sound session has the effect of its request, or none if it fails. -/
theorem Sound.step
    (sound : session.Sound make)
    {command : Command α}
    {answer : Except Error (Answer α)}
    (stepped : session.step command = (answer, after)) :
    Step make (session.effectOf command answer) session after ∧
      ∀ told, answer = .ok told → session.Tells after command told := by
  have ends := ends_perform sound command
  have sameAnswer : (session.step command).1 = answer := congrArg Prod.fst stepped
  have sameAfter : (session.step command).2 = after := congrArg Prod.snd stepped
  rw [← sameAfter]
  cases answer with
  | ok told =>
    obtain ⟨step, tells⟩ := step_of_ok ends sameAnswer
    exact ⟨step, fun _ same => Except.ok.inj same ▸ tells⟩
  | error reason => exact ⟨step_of_error ends sameAnswer, fun _ same => nomatch same⟩

theorem run_sound
    (sound : session.Sound make)
    (commands : List (Command α)) :
    (session.run commands).Sound make := by
  induction commands generalizing session with
  | nil => exact sound
  | cons command commands step => exact step (sound.step rfl).1.sound

/-- A session on a new store, whose accelerator may fail as a schedule says. -/
def start
    (capacity : Nat)
    (device : DeviceId)
    (unsupported : List OpCode)
    (faults : Method → Nat → Option DeviceError) : Session α :=
  create (Accelerator.create (Pool.create capacity device unsupported) faults)

section

variable
    {capacity : Nat}
    {device : DeviceId}
    {unsupported : List OpCode}
    {faults : Method → Nat → Option DeviceError}
    {commands : List (Command α)}

omit [Arithmetic α] in
theorem start_sound :
    (start capacity device unsupported faults : Session α).Sound
      ⟨device, capacity, unsupported, faults⟩ where
  accounted := by
    have none : others (start capacity device unsupported faults : Session α) = ∅ := by
      ext entry
      simp [others, start, create]
    rw [none]
    exact accounted_create
  claims _ := .inl ⟨rfl, rfl⟩
  distinct := by
    intro _ _ _ _ found
    simp [start, create] at found
  sized := by
    intro _ member
    simp [start, create] at member

/-- What is right after every run of requests, whichever of them failed. -/
theorem sound_of_run
    (reached : (start capacity device unsupported faults).run commands = session) :
    session.Sound ⟨device, capacity, unsupported, faults⟩ := by
  rw [← reached]
  exact run_sound start_sound commands

/--
In every session that a run of requests leads to, a step changes what a buffer
reads as only if it is an answered request to replace the contents of this very
buffer, and then as the request says.  Whatever fails changes nothing, and what
is read or leased is what the buffer read as.
-/
theorem step_contents
    {command : Command α}
    {answer : Except Error (Answer α)}
    (reached : (start capacity device unsupported faults).run commands = session)
    (stepped : session.step command = (answer, after)) :
    (∀ buffer, session.Refers buffer → ∃ old, session.store.reading? buffer = some old ∧
      (after.store.reading? buffer = some ((session.effectOf command answer).change buffer old) ∨
        buffer ∈ (session.effectOf command answer).released ∧ ¬ after.Refers buffer)) ∧
    ∀ told, answer = .ok told → session.Tells after command told := by
  have sound := sound_of_run reached
  obtain ⟨step, tells⟩ := sound.step stepped
  refine ⟨fun buffer known => ?_, tells⟩
  obtain ⟨old, reads⟩ := sound.exists_reading known
  refine ⟨old, reads, ?_⟩
  by_cases later : after.Refers buffer
  · exact .inl (step.readings buffer old known later reads)
  · exact .inr ⟨not_not.1 fun kept => later (step.refers buffer known kept), later⟩

/-- A session on integers after a run of requests, on a small accelerator that never fails. -/
def onIntegers (commands : List (Command Int)) : Session Int :=
  (start 3 ⟨0⟩ [] fun _ _ => none).run commands

/-- Two buffers on an accelerator that has room for one of them. -/
def crowded : Session Int :=
  onIntegers [.allocateFrom #[1, 2], .allocateFrom #[3, 4], .ensure 0 .accelerator]

/-- The first buffer leaves the accelerator to the second and still reads as it did. -/
theorem step_contents_crowded :
    (crowded.step (.ensure 1 .accelerator)).2.store.location? ⟨0⟩ = some .host ∧
      (crowded.step (.ensure 1 .accelerator)).2.store.reading? ⟨0⟩ = some #[1, 2] := by
  have reached : (start 3 ⟨0⟩ [] fun _ _ => none).run
      [.allocateFrom #[1, 2], .allocateFrom #[3, 4], .ensure 0 .accelerator] = crowded := rfl
  have stepped : crowded.step (.ensure 1 .accelerator) =
      (.ok .done, (crowded.step (.ensure 1 .accelerator)).2) :=
    Prod.ext (by cbv) rfl
  have before : crowded.store.reading? ⟨0⟩ = some #[1, 2] := by decide +kernel
  obtain ⟨contents, -⟩ := step_contents reached stepped
  obtain ⟨old, reads, after | ⟨released, -⟩⟩ := contents ⟨0⟩ (.inl (by decide +kernel))
  · rw [before] at reads
    cases reads
    exact ⟨by decide +kernel, after⟩
  · exact released.elim

end

end Store.Session

end Elementwise
