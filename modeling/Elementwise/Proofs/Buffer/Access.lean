import Mathlib.Data.Set.Insert
import Elementwise.Buffer.Access
import Elementwise.Proofs.Buffer.Migration

/-!
# Leases, reads and writes

An action under a lease may rely on where the leased buffer is, because
nothing moves it before the lease ends; and what the action leaves alone is
left alone by the whole, which gives back the lease in any case.  The same
holds of an action with buffers of its own, which are gone afterwards.

Reads and writes do to the readings of their buffer what they say and leave
all others alone.  A failure leaves all of them alone.
-/

namespace Elementwise.Store

variable {α : Type} [Arithmetic α] {before : Store α} {buffer : BufferId}

/-! ## Claims and moves on demand -/

omit [Arithmetic α] in
/-- A buffer that is claimed is live and nobody leases it. -/
theorem ends_claim :
    Ends (claim buffer) before
      (fun _ after => Alike before after ∧
        ∃ held, before.claim? buffer = some held ∧ held.leases = 0)
      (fun _ after => after = before) := by
  unfold claim
  rw [ends_bind_iff]
  refine ends_find ?_ fun _ => rfl
  intro found claimed _
  split
  · rfl
  next idle =>
    refine ⟨alike_touch before buffer, found.claim, claimed, ?_⟩
    exact Nat.eq_zero_of_not_pos idle

omit [Arithmetic α] in
theorem idle_of_claim
    {held : Claim}
    (claimed : before.claim? buffer = some held)
    (unleased : held.leases = 0) :
    before.Idle buffer := by
  intro other same
  rw [claimed] at same
  cases same
  exact unleased

omit [Arithmetic α] in
theorem Alike.idle
    {after : Store α}
    (alike : Alike before after)
    (idle : before.Idle buffer) :
    after.Idle buffer := by
  intro held claimed
  rw [alike.claim?] at claimed
  exact idle held claimed

/-- Moving a buffer to the host or the accelerator keeps every reading. -/
theorem ends_ensure
    (valid : before.Valid)
    {tier : Tier}
    (stored : tier ≠ .empty) :
    Ends (ensure buffer tier) before
      (fun _ after => Frame ∅ ∅ before after)
      (fun _ after => Frame ∅ ∅ before after) := by
  unfold ensure
  rw [ends_bind_iff]
  refine ends_claim.mono ?_ ?_
  · rintro _ middle ⟨alike, held, claimed, unleased⟩
    have idle := alike.idle (idle_of_claim claimed unleased)
    refine (ends_move (alike.valid valid) idle stored).mono ?_ ?_
    · exact fun _ after moved => (alike.frame valid).trans_empty moved.1
    · exact fun _ after moved => (alike.frame valid).trans_empty moved
  · rintro _ after rfl
    exact Frame.refl valid

/-- A released buffer reads as zeros. -/
theorem ends_release (valid : before.Valid) :
    Ends (release buffer) before
      (fun _ after => Frame ∅ {buffer} before after ∧
        ∃ held, before.claim? buffer = some held ∧
          after.reading? buffer = some (zeros α held.length))
      (fun _ after => Frame ∅ ∅ before after) := by
  unfold release ensure
  rw [ends_bind_iff]
  refine ends_claim.mono ?_ ?_
  · rintro _ middle ⟨alike, held, claimed, unleased⟩
    have still : middle.claim? buffer = some held := by
      rw [alike.claim?, claimed]
    obtain ⟨frame, reading⟩ := frame_replace_empty (alike.valid valid) still unleased
    exact ⟨(alike.frame valid).trans_empty frame, held, claimed, reading⟩
  · rintro _ after rfl
    exact Frame.refl valid

/-! ## Leases -/

/-- A buffer is held on a tier. -/
def OnTier (store : Store α) (buffer : BufferId) (tier : Tier) : Prop :=
  ∃ contents, store.contents? buffer = some contents ∧ contents.tier = tier

/-- A lease leaves the buffer on its tier, and is one more lease than before. -/
theorem ends_lease
    (valid : before.Valid)
    {tier : Tier} :
    Ends (lease buffer tier) before
      (fun _ after => ∃ middle, Frame ∅ ∅ before middle ∧ middle.OnTier buffer tier ∧
        after = middle.pin buffer)
      (fun _ after => Frame ∅ ∅ before after) := by
  unfold lease
  split
  · exact Frame.refl valid
  next stored =>
    have touched := alike_touch before buffer
    have frame := touched.frame valid
    rw [ends_bind_iff, ends_modify_iff, ends_bind_iff]
    refine ends_find ?_ fun _ => frame
    intro found claimed held
    by_cases there : found.tier = tier
    · simp only [there, ne_eq, not_true_eq_false, if_false]
      exact ⟨before.touch buffer, frame, ⟨found.contents, held, there⟩, rfl⟩
    · simp only [there, ne_eq, not_false_eq_true, if_true]
      split
      · exact frame
      next unleased =>
        rw [ends_bind_iff]
        have idle : (before.touch buffer).Idle buffer :=
          idle_of_claim claimed (Nat.eq_zero_of_not_pos unleased)
        refine (ends_move frame.valid idle stored).mono ?_ ?_
        · rintro _ middle ⟨moved, onTier⟩
          exact ⟨middle, frame.trans_empty moved, onTier, rfl⟩
        · exact fun _ after moved => frame.trans_empty moved

/-- Stores that differ only in the claims on some buffers. -/
structure Released (buffers : Set BufferId) (inner after : Store α) : Prop where
  reading? : after.reading? = inner.reading?
  contents? : after.contents? = inner.contents?
  claims : ∀ other, other ∉ buffers → after.claim? other = inner.claim? other

theorem Released.trans
    {first second : Set BufferId}
    {inner middle after : Store α}
    (inside : Released first inner middle)
    (outside : Released second middle after) :
    Released (first ∪ second) inner after where
  reading? := outside.reading?.trans inside.reading?
  contents? := outside.contents?.trans inside.contents?
  claims other notIn := by
    rw [Set.mem_union, not_or] at notIn
    rw [outside.claims other notIn.2, inside.claims other notIn.1]

/-- Giving a lease back undoes it and nothing else. -/
theorem frame_unpin_of_pin
    {made written : Set BufferId}
    {middle inner : Store α}
    (valid : middle.Valid)
    {held : Claim}
    (claimed : middle.claim? buffer = some held)
    (kept : buffer ∉ made)
    (frame : Frame made written (middle.pin buffer) inner) :
    Frame made written middle (inner.unpin buffer) ∧
      Released {buffer} inner (inner.unpin buffer) := by
  have pinned : (middle.pin buffer).claim? buffer = some held.pin := by
    rw [claim?_pin, if_pos rfl, claimed, Option.map_some]
  have still : inner.claim? buffer = some held.pin := by
    rw [frame.claims buffer kept, pinned]
  have wanted : held.pin.unpin.Wanted := by
    rw [Claim.unpin_pin]
    exact valid.wanted buffer held claimed
  obtain ⟨unpinned, back⟩ := frame_unpin frame.valid still
  rw [if_pos wanted, Claim.unpin_pin] at back
  obtain ⟨contents, readings⟩ := contents?_reclaim revises_unpin still wanted
  have claims : ∀ other, buffer ≠ other →
      (inner.unpin buffer).claim? other = inner.claim? other :=
    fun other different => unpinned.claims other (Ne.symm different)
  refine ⟨⟨unpinned.valid, Nat.le_trans frame.nextIndex unpinned.nextIndex, ?_, ?_, ?_⟩,
    readings, contents, fun other different => claims other (Ne.symm different)⟩
  · intro other outside
    by_cases same : buffer = other
    · rw [← same, back, claimed]
    · rw [claims other same, frame.claims other outside, claim?_pin, if_neg same]
  · intro other otherClaim outside otherClaimed leased
    have contentsSame : (inner.unpin buffer).contents? other = inner.contents? other :=
      congrFun contents other
    rw [contentsSame]
    by_cases same : buffer = other
    · subst same
      rw [frame.pinned buffer held.pin outside pinned (Nat.succ_pos _), contents?_pin]
    · rw [frame.pinned other otherClaim outside (by rw [claim?_pin, if_neg same, otherClaimed])
        leased, contents?_pin]
  · intro other outside unwritten
    have readingSame : (inner.unpin buffer).reading? other = inner.reading? other :=
      congrFun readings other
    rw [readingSame, frame.readings other outside unwritten, reading?_pin]

section

variable
    {β : Type}
    {body : Action α β}
    {failedWritten : Set BufferId}

/--
An action under a lease.  It may rely on the tier, and the whole leaves alone
what the action leaves alone.
-/
theorem ends_withLease
    (made written : β → Set BufferId)
    (done : β → Store α → Prop)
    (valid : before.Valid)
    {tier : Tier}
    (run : ∀ middle held, Frame ∅ ∅ before middle → middle.OnTier buffer tier →
      middle.claim? buffer = some held →
      Ends body (middle.pin buffer)
        (fun answer after => Frame (made answer) (written answer) (middle.pin buffer) after ∧
          (∀ other ∈ made answer, (middle.pin buffer).claim? other = none) ∧ done answer after)
        (fun _ after => Frame ∅ failedWritten (middle.pin buffer) after)) :
    Ends (withLease buffer tier body) before
      (fun answer after => Frame (made answer) (written answer) before after ∧
        (∀ other ∈ made answer, before.claim? other = none) ∧
        ∃ inner, Released {buffer} inner after ∧ done answer inner)
      (fun _ after => Frame ∅ failedWritten before after) := by
  unfold withLease
  rw [ends_bind_iff]
  refine (ends_lease valid).mono ?_
    fun _ after frame => frame.mono (Set.Subset.refl _) (Set.empty_subset _)
  rintro _ _ ⟨middle, frame, onTier, rfl⟩
  have live : ∃ held, middle.claim? buffer = some held := by
    obtain ⟨contents, stored, -⟩ := onTier
    exact exists_claim stored
  obtain ⟨held, claimed⟩ := live
  rw [ends_followedBy_iff]
  refine (run middle held frame onTier claimed).mono ?_ ?_
  · rintro answer inner ⟨inside, fresh, holds⟩
    have absent : ∀ other ∈ made answer, middle.claim? other = none := by
      intro other member
      have gone := fresh other member
      rw [claim?_pin] at gone
      split at gone
      · exact Option.map_eq_none_iff.1 gone
      · exact gone
    have kept : buffer ∉ made answer := by
      intro member
      rw [absent buffer member] at claimed
      cases claimed
    obtain ⟨outside, released⟩ := frame_unpin_of_pin frame.valid claimed kept inside
    refine ⟨frame.trans_empty outside, fun other member => ?_, inner, released, holds⟩
    rw [← frame.claims other (Set.notMem_empty _), absent other member]
  · rintro _ inner inside
    exact frame.trans_empty
      (frame_unpin_of_pin frame.valid claimed (Set.notMem_empty _) inside).1

/-- A buffer that is leased, and the block in which it stays. -/
structure Pins (store : Store α) (buffer : BufferId) (block : Block) : Prop where
  contents : store.contents? buffer = some (.device block)
  leased : ∃ claim, store.claim? buffer = some claim ∧ 0 < claim.leases

theorem Pins.frame
    {made written : Set BufferId}
    {after : Store α}
    {block : Block}
    (pins : before.Pins buffer block)
    (frame : Frame made written before after)
    (kept : buffer ∉ made) :
    after.Pins buffer block := by
  obtain ⟨claim, claimed, leased⟩ := pins.leased
  refine ⟨?_, claim, ?_, leased⟩
  · rw [frame.pinned buffer claim kept claimed leased, pins.contents]
  · rw [frame.claims buffer kept, claimed]

omit [Arithmetic α] in
/-- One more lease, of whatever buffer, does not move it. -/
theorem Pins.pin
    {block : Block}
    (pins : before.Pins buffer block)
    (other : BufferId) :
    (before.pin other).Pins buffer block := by
  obtain ⟨claim, claimed, leased⟩ := pins.leased
  refine ⟨by rw [contents?_pin, pins.contents], ?_⟩
  rw [claim?_pin, claimed]
  split
  · exact ⟨claim.pin, rfl, Nat.succ_pos _⟩
  · exact ⟨claim, rfl, leased⟩

/-- The store in which an action runs while buffers are leased on the accelerator. -/
structure Leased (buffers : List BufferId) (before inside : Store α) : Prop where
  valid : inside.Valid
  claims : ∀ other, inside.claim? other = (before.claim? other).map fun held =>
    { held with leases := held.leases + buffers.count other }
  pinned : ∀ other held, before.claim? other = some held → 0 < held.leases →
    inside.contents? other = before.contents? other
  readings : inside.reading? = before.reading?
  onAccelerator : ∀ buffer ∈ buffers, inside.OnAccelerator buffer

theorem Leased.stillLive
    {buffers : List BufferId}
    {inside : Store α}
    (leased : Leased buffers before inside)
    (live : ∃ claim, before.claim? buffer = some claim) :
    ∃ claim, inside.claim? buffer = some claim := by
  obtain ⟨claim, claimed⟩ := live
  rw [leased.claims, claimed]
  exact ⟨_, rfl⟩

theorem Leased.refl (valid : before.Valid) : Leased [] before before where
  valid := valid
  claims other := by cases before.claim? other <;> rfl
  pinned _ _ _ _ := rfl
  readings := rfl
  onAccelerator _ absent := by cases absent

omit [Arithmetic α] in
theorem onAccelerator_of_onTier
    {store : Store α}
    (onTier : store.OnTier buffer .accelerator) :
    store.OnAccelerator buffer := by
  obtain ⟨contents, held, tier⟩ := onTier
  cases contents with
  | empty => cases tier
  | host values => cases tier
  | device block => exact ⟨block, held⟩

omit [Arithmetic α] in
theorem onAccelerator_pin
    {store : Store α}
    (onTier : store.OnTier buffer .accelerator) :
    (store.pin buffer).OnAccelerator buffer := by
  obtain ⟨block, held⟩ := onAccelerator_of_onTier onTier
  exact ⟨block, by rw [contents?_pin, held]⟩

/-- One more buffer is leased before those that are leased inside. -/
theorem Leased.cons
    {middle inside : Store α}
    {buffers : List BufferId}
    {held : Claim}
    (frame : Frame ∅ ∅ before middle)
    (onTier : middle.OnTier buffer .accelerator)
    (claimed : middle.claim? buffer = some held)
    (leased : Leased buffers (middle.pin buffer) inside) :
    Leased (buffer :: buffers) before inside where
  valid := leased.valid
  claims other := by
    rw [leased.claims, claim?_pin, ← frame.claims other (Set.notMem_empty _)]
    by_cases same : buffer = other
    · subst same
      rw [if_pos rfl, claimed, List.count_cons_self]
      simp only [Option.map_some, Claim.pin, Option.some.injEq, Claim.mk.injEq, true_and]
      omega
    · rw [if_neg same, List.count_cons_of_ne same]
  pinned other otherHeld otherClaimed positive := by
    have atMiddle : middle.claim? other = some otherHeld := by
      rw [frame.claims other (Set.notMem_empty _), otherClaimed]
    have still : ∃ more, (middle.pin buffer).claim? other = some more ∧ 0 < more.leases := by
      rw [claim?_pin, atMiddle]
      split
      · exact ⟨otherHeld.pin, rfl, Nat.succ_pos _⟩
      · exact ⟨otherHeld, rfl, positive⟩
    obtain ⟨more, claimedMore, morePositive⟩ := still
    rw [leased.pinned other more claimedMore morePositive, contents?_pin,
      frame.pinned other otherHeld (Set.notMem_empty _) otherClaimed positive]
  readings := by
    rw [leased.readings, reading?_pin]
    funext other
    exact frame.readings other (Set.notMem_empty _) (Set.notMem_empty _)
  onAccelerator other member := by
    rcases List.mem_cons.1 member with rfl | member
    · obtain ⟨block, stored⟩ := onAccelerator_of_onTier onTier
      have pinned : (middle.pin other).claim? other = some held.pin := by
        rw [claim?_pin, if_pos rfl, claimed, Option.map_some]
      refine ⟨block, ?_⟩
      rw [leased.pinned other held.pin pinned (Nat.succ_pos _), contents?_pin, stored]
    · exact leased.onAccelerator other member

omit [Arithmetic α] in
/-- A set of leases depends on how often each buffer is leased, not on the order. -/
theorem Leased.perm
    [Arithmetic α]
    {inside : Store α}
    {buffers others : List BufferId}
    (leased : Leased buffers before inside)
    (perm : buffers.Perm others) :
    Leased others before inside where
  valid := leased.valid
  claims other := by rw [leased.claims, perm.count_eq]
  pinned := leased.pinned
  readings := leased.readings
  onAccelerator other member := leased.onAccelerator other (perm.mem_iff.2 member)

/-- A leased buffer is pinned to its block. -/
theorem Leased.pins
    {inside : Store α}
    {buffers : List BufferId}
    {block : Block}
    (leased : Leased buffers before inside)
    (member : buffer ∈ buffers)
    (held : inside.contents? buffer = some (.device block)) :
    inside.Pins buffer block := by
  obtain ⟨claim, claimed⟩ := exists_claim held
  refine ⟨held, claim, claimed, ?_⟩
  rw [leased.claims] at claimed
  obtain ⟨old, -, rfl⟩ := Option.map_eq_some_iff.1 claimed
  exact Nat.add_pos_right _ (List.count_pos_iff.2 member)

/-- A pinned buffer stays where it is while others are leased. -/
theorem Pins.of_leased
    {after : Store α}
    {buffers : List BufferId}
    {block : Block}
    (pins : before.Pins buffer block)
    (leased : Leased buffers before after) :
    after.Pins buffer block := by
  obtain ⟨claim, claimed, positive⟩ := pins.leased
  refine ⟨(leased.pinned buffer claim claimed positive).trans pins.contents,
    { claim with leases := claim.leases + buffers.count buffer }, ?_, ?_⟩
  · rw [leased.claims, claimed, Option.map_some]
  · exact Nat.lt_of_lt_of_le positive (Nat.le_add_right _ _)

theorem ends_withLeasesInOrder
    (made written : β → Set BufferId)
    (done : β → Store α → Prop)
    (valid : before.Valid)
    {buffers : List BufferId}
    (run : ∀ inside, Leased buffers before inside →
      Ends body inside
        (fun answer after => Frame (made answer) (written answer) inside after ∧
          (∀ other ∈ made answer, inside.claim? other = none) ∧ done answer after)
        (fun _ after => Frame ∅ failedWritten inside after)) :
    Ends (withLeasesInOrder buffers body) before
      (fun answer after => Frame (made answer) (written answer) before after ∧
        (∀ other ∈ made answer, before.claim? other = none) ∧
        ∃ inner, Released { buffer | buffer ∈ buffers } inner after ∧ done answer inner)
      (fun _ after => Frame ∅ failedWritten before after) := by
  induction buffers generalizing before with
  | nil =>
    refine (run before (Leased.refl valid)).mono ?_ fun _ _ frame => frame
    rintro answer after ⟨frame, fresh, holds⟩
    refine ⟨frame, fresh, after, ?_, holds⟩
    exact ⟨rfl, rfl, fun _ _ => rfl⟩
  | cons buffer buffers step =>
    rw [withLeasesInOrder]
    refine (ends_withLease made written (fun answer store =>
      ∃ inner, Released { buffer | buffer ∈ buffers } inner store ∧ done answer inner)
      valid ?_).mono ?_ fun _ _ frame => frame
    · intro middle held frame onTier claimed
      have pinned : (middle.pin buffer).Valid := (frame_pin frame.valid).valid
      exact step pinned fun inside leased => run inside (leased.cons frame onTier claimed)
    · rintro answer after ⟨frame, fresh, outer, outside, inner, inside, holds⟩
      refine ⟨frame, fresh, inner, ?_, holds⟩
      have both := inside.trans outside
      refine ⟨both.reading?, both.contents?, fun other absent => both.claims other ?_⟩
      rintro (member | rfl)
      · exact absent (List.mem_cons_of_mem _ member)
      · exact absent List.mem_cons_self

/-- An action under several leases; each buffer is on the accelerator meanwhile. -/
theorem ends_withLeases
    (made written : β → Set BufferId)
    (done : β → Store α → Prop)
    (valid : before.Valid)
    {buffers : List BufferId}
    (run : ∀ inside, Leased buffers before inside →
      Ends body inside
        (fun answer after => Frame (made answer) (written answer) inside after ∧
          (∀ other ∈ made answer, inside.claim? other = none) ∧ done answer after)
        (fun _ after => Frame ∅ failedWritten inside after)) :
    Ends (withLeases buffers body) before
      (fun answer after => Frame (made answer) (written answer) before after ∧
        (∀ other ∈ made answer, before.claim? other = none) ∧
        ∃ inner, Released { buffer | buffer ∈ buffers } inner after ∧ done answer inner)
      (fun _ after => Frame ∅ failedWritten before after) := by
  have perm := List.mergeSort_perm buffers fun left right => left.index ≤ right.index
  unfold withLeases
  refine (ends_withLeasesInOrder made written done valid fun inside leased =>
    run inside (leased.perm perm)).mono ?_ fun _ _ frame => frame
  rintro answer after ⟨frame, fresh, inner, released, holds⟩
  refine ⟨frame, fresh, inner, ⟨released.reading?, released.contents?, ?_⟩, holds⟩
  exact fun other absent => released.claims other fun member => absent (perm.mem_iff.1 member)

omit [Arithmetic α] in
/-- The block of a buffer that is on the accelerator. -/
theorem ends_blockOf
    {store : Store α}
    {failed : Error → Store α → Prop}
    (onAccelerator : store.OnAccelerator buffer) :
    Ends (blockOf buffer) store
      (fun block after => after = store ∧ store.contents? buffer = some (.device block))
      failed := by
  obtain ⟨block, stored⟩ := onAccelerator
  unfold blockOf
  rw [ends_bind_iff]
  refine ends_find ?_ ?_
  · intro found _ held
    rw [stored] at held
    cases contents : found.contents with
    | device other =>
      rw [contents] at held
      cases held
      exact ⟨rfl, stored⟩
    | empty =>
      rw [contents] at held
      cases held
    | host values =>
      rw [contents] at held
      cases held
  · intro absent
    obtain ⟨held, claimed⟩ := exists_claim stored
    rw [absent] at claimed
    cases claimed

/-- The blocks of leased buffers. -/
theorem ends_mapM_blockOf
    {store : Store α}
    {failed : Error → Store α → Prop}
    {buffers some : List BufferId}
    (leased : Leased buffers before store)
    (among : ∀ buffer ∈ some, buffer ∈ buffers) :
    Ends (some.mapM blockOf) store
      (fun blocks after => after = store ∧ List.Forall₂ store.Pins some blocks) failed := by
  refine ends_mapM some fun buffer member => ?_
  refine (ends_blockOf (leased.onAccelerator buffer (among buffer member))).mono ?_
    fun _ _ holds => holds
  rintro block after ⟨same, held⟩
  exact ⟨same, leased.pins (among buffer member) held⟩

end

/-! ## Reads and writes -/

omit [Arithmetic α] in
/-- The values of a buffer on the host. -/
theorem ends_hostValues
    {store : Store α}
    {failed : Error → Store α → Prop}
    (onHost : store.OnTier buffer .host) :
    Ends (hostValues buffer) store
      (fun values after => after = store ∧ store.contents? buffer = some (.host values))
      failed := by
  obtain ⟨contents, stored, tier⟩ := onHost
  unfold hostValues
  rw [ends_bind_iff]
  refine ends_find ?_ ?_
  · intro found _ held
    rw [stored] at held
    cases held
    cases inside : found.contents with
    | host values =>
      rw [inside] at stored
      exact ⟨rfl, stored⟩
    | empty =>
      rw [inside] at tier
      cases tier
    | device block =>
      rw [inside] at tier
      cases tier
  · intro absent
    obtain ⟨held, claimed⟩ := exists_claim stored
    rw [absent] at claimed
    cases claimed

/-- The values on the host are what a buffer reads as. -/
theorem reading?_of_host
    {store : Store α}
    {values : Array α}
    (held : store.contents? buffer = some (.host values)) :
    store.reading? buffer = some values := by
  obtain ⟨claim, claimed⟩ := exists_claim held
  rw [reading?_eq, claimed, held]
  rfl

/-- A read answers what the buffer reads as and changes nothing. -/
theorem ends_read (valid : before.Valid) :
    Ends (read buffer) before
      (fun values after => Frame ∅ ∅ before after ∧ before.reading? buffer = some values)
      (fun _ after => Frame ∅ ∅ before after) := by
  unfold read
  refine (ends_withLease (fun _ => ∅) (fun _ => ∅)
    (fun values _ => before.reading? buffer = some values) valid ?_).mono ?_
      fun _ _ frame => frame
  · intro middle held frame onTier claimed
    have onHost : (middle.pin buffer).OnTier buffer .host := by
      unfold OnTier
      rw [contents?_pin]
      exact onTier
    refine (ends_hostValues onHost).mono ?_ fun _ _ frame => frame
    rintro values after ⟨rfl, stored⟩
    refine ⟨Frame.refl (frame_pin frame.valid).valid, fun _ absent => absent.elim, ?_⟩
    rw [← frame.readings buffer (Set.notMem_empty _) (Set.notMem_empty _), ← reading?_pin]
    exact reading?_of_host stored
  · rintro values after ⟨frame, -, inner, -, reading⟩
    exact ⟨frame, reading⟩

/-- A write that succeeds is what the buffer reads as afterwards. -/
theorem ends_write (valid : before.Valid) (values : Array α) :
    Ends (write buffer values) before
      (fun _ after => Frame ∅ {buffer} before after ∧ after.reading? buffer = some values ∧
        (before.claim? buffer).map Claim.length = some values.size)
      (fun _ after => Frame ∅ ∅ before after) := by
  unfold write
  rw [ends_bind_iff]
  refine ends_find ?_ fun _ => Frame.refl valid
  intro found claimed _
  dsimp only
  split
  · exact Frame.refl valid
  next fits =>
    have size : values.size = found.claim.length := not_not.1 fits
    rw [ends_bind_iff]
    refine ends_claim.mono ?_ ?_
    · rintro _ middle ⟨alike, held, same, unleased⟩
      rw [claimed] at same
      cases same
      have still : middle.claim? buffer = some found.claim := by
        rw [alike.claim?, claimed]
      obtain ⟨frame, reading⟩ := frame_replace (alike.valid valid) still unleased
        (show (Contents.host values).Fits _ _ from size) fun _ => nofun
      refine ⟨(alike.frame valid).trans_empty frame, reading, ?_⟩
      rw [claimed, Option.map_some, size]
    · rintro _ after rfl
      exact Frame.refl valid

/-- An update applies to what the buffer read as. -/
theorem ends_update
    (valid : before.Valid)
    (change : (size : Nat) → Vector α size → Vector α size) :
    Ends (update buffer change) before
      (fun count after => Frame ∅ {buffer} before after ∧
        ∃ values, before.reading? buffer = some values ∧ count = values.size ∧
          after.reading? buffer = some (change _ values.toVector).toArray)
      (fun _ after => Frame ∅ ∅ before after) := by
  unfold update
  rw [ends_bind_iff]
  refine ends_claim.mono ?_ ?_
  · rintro _ first ⟨alike, held, claimed, unleased⟩
    have idle := alike.idle (idle_of_claim claimed unleased)
    have touched := alike.frame valid
    rw [ends_bind_iff]
    refine (ends_moveToHost touched.valid idle).mono ?_ ?_
    · rintro _ middle ⟨moved, -, -, values, stored, reading⟩
      rw [ends_bind_iff]
      refine (ends_hostValues ⟨_, stored, rfl⟩).mono ?_
        fun _ _ (frame : Frame ∅ ∅ before _) => frame
      rintro others after ⟨rfl, same⟩
      rw [stored] at same
      cases same
      have frame := touched.trans_empty moved
      have still : after.claim? buffer = some held := by
        rw [frame.claims buffer (Set.notMem_empty _), claimed]
      have fits := frame.valid.fits buffer held _ still stored
      have changed : (Contents.host (change _ values.toVector).toArray).Fits
          after.accelerator.pool held.length := by
        show (change _ values.toVector).toArray.size = held.length
        rw [Vector.size_toArray]
        exact fits
      obtain ⟨replaced, read⟩ := frame_replace frame.valid still unleased changed
        fun _ => nofun
      refine ⟨frame.trans_empty replaced, values, ?_, rfl, read⟩
      rw [← frame.readings buffer (Set.notMem_empty _) (Set.notMem_empty _), reading]
    · exact fun _ after failed => touched.trans_empty failed.1
  · rintro _ after rfl
    exact Frame.refl valid

/-- A filled buffer reads as one value throughout. -/
theorem ends_fill (valid : before.Valid) (value : α) :
    Ends (fill buffer value) before
      (fun _ after => Frame ∅ {buffer} before after ∧
        ∃ held, before.claim? buffer = some held ∧
          after.reading? buffer = some (Array.replicate held.length value))
      (fun _ after => Frame ∅ ∅ before after) := by
  unfold fill
  rw [ends_bind_iff]
  refine ends_claim.mono ?_ ?_
  · rintro _ middle ⟨alike, held, claimed, unleased⟩
    have touched := alike.frame valid
    have still : middle.claim? buffer = some held := by
      rw [alike.claim?, claimed]
    rw [ends_bind_iff]
    refine ends_find ?_ fun _ => touched
    intro found claimedMiddle stored
    have isHeld : found.claim = held := by
      rw [still] at claimedMiddle
      exact (Option.some.inj claimedMiddle).symm
    have fits := touched.valid.fits buffer held _ still stored
    -- off the accelerator, the new values replace the contents
    have replaced : ∀ values : Array α, values = Array.replicate held.length value →
        Frame ∅ {buffer} before (middle.replace buffer (.host values)) ∧
          ∃ held, before.claim? buffer = some held ∧
            (middle.replace buffer (.host values)).reading? buffer =
              some (Array.replicate held.length value) := by
      rintro _ rfl
      obtain ⟨frame, reading⟩ := frame_replace touched.valid still unleased
        (show (Contents.host (Array.replicate held.length value)).Fits _ _ from
          Array.size_replicate) fun _ => nofun
      exact ⟨touched.trans_empty frame, held, claimed, reading⟩
    cases contents : found.contents with
    | host values =>
      rw [contents] at fits
      refine replaced _ ?_
      rw [Array.map_const']
      exact congrArg (Array.replicate · value) fits
    | empty =>
      refine replaced _ ?_
      rw [← isHeld]
      rfl
    | device block =>
      rw [contents] at stored fits
      refine ends_perform ?_ fun reason calls => touched.trans_empty
        ((alike_called middle calls).frame touched.valid)
      intro _ pool calls acted
      obtain ⟨next, done, same⟩ := map_eq_ok_iff.1 acted
      cases same
      obtain ⟨values, found, keeps, named, live⟩ := Pool.fill_eq_ok touched.valid.named done
      have frame := frame_of_accelerator touched.valid
        { middle.accelerator with pool := pool, calls := calls } keeps named
      have only : middle.behind (· = block.handle) ⊆ {buffer} := by
        rintro other ⟨shared, held, same⟩
        exact touched.valid.apart other buffer shared block held stored same
      refine ⟨touched.trans_empty (frame.mono (Set.Subset.refl _) only), held, claimed, ?_⟩
      obtain ⟨-, -, others, present, size⟩ := fits
      rw [found] at present
      cases present
      have claimedAfter : (middle.called calls pool).claim? buffer = some held := still
      have storedAfter : (middle.called calls pool).contents? buffer = some (.device block) :=
        stored
      rw [reading?_eq, claimedAfter, storedAfter, ← size]
      exact live
  · rintro _ after rfl
    exact Frame.refl valid

/-! ## New buffers -/

/-- A new empty buffer reads as zeros. -/
theorem ends_allocate (valid : before.Valid) (length : Nat) {failed : Error → Store α → Prop} :
    Ends (allocate length) before
      (fun buffer after => before.claim? buffer = none ∧ Frame {buffer} ∅ before after ∧
        after.claim? buffer = some (.fresh length) ∧
        after.reading? buffer = some (zeros α length) ∧ before.nextIndex ≤ buffer.index)
      failed := by
  obtain ⟨frame, reading⟩ := frame_register valid
    (show (Contents.empty : Contents α).Fits _ length from trivial) fun _ => nofun
  unfold allocate
  rw [ends_modifyGet_iff]
  refine ⟨claim?_register_fst valid _ _, frame, ?_, reading, Nat.le_refl _⟩
  rw [claim?_register, if_pos rfl]

/-- A new buffer with values reads as these. -/
theorem ends_allocateFrom
    (valid : before.Valid)
    (values : Array α)
    {failed : Error → Store α → Prop} :
    Ends (allocateFrom values) before
      (fun buffer after => before.claim? buffer = none ∧ Frame {buffer} ∅ before after ∧
        after.claim? buffer = some (.fresh values.size) ∧
        after.reading? buffer = some values ∧ before.nextIndex ≤ buffer.index)
      failed := by
  obtain ⟨frame, reading⟩ := frame_register valid
    (show (Contents.host values).Fits _ values.size from rfl) fun _ => nofun
  unfold allocateFrom
  rw [ends_modifyGet_iff]
  refine ⟨claim?_register_fst valid _ _, frame, ?_, reading, Nat.le_refl _⟩
  rw [claim?_register, if_pos rfl]

/-- A buffer that is made and dropped leaves no trace. -/
theorem frame_drop_fresh
    {made written : Set BufferId}
    {after : Store α}
    {length : Nat}
    (absent : before.claim? buffer = none)
    (frame : Frame (made ∪ {buffer}) (written ∪ {buffer}) before after)
    (fresh : after.claim? buffer = some (.fresh length)) :
    Frame made written before (after.drop buffer) ∧
      (∀ other, buffer ≠ other →
        (after.drop buffer).claim? other = after.claim? other ∧
          (after.drop buffer).reading? other = after.reading? other) := by
  obtain ⟨dropped, gone⟩ := frame_drop frame.valid fresh
  have unwanted : ¬ (Claim.fresh length).drop.Wanted := by
    rintro (held | leased)
    · exact absurd held (Nat.lt_irrefl _)
    · exact absurd leased (Nat.lt_irrefl _)
  rw [if_neg unwanted] at gone
  have others : ∀ other, buffer ≠ other →
      (after.drop buffer).claim? other = after.claim? other ∧
        (after.drop buffer).reading? other = after.reading? other :=
    fun other different => ⟨dropped.claims other (Ne.symm different),
      dropped.readings other (Ne.symm different) (Set.notMem_empty _)⟩
  have noReading : ∀ store : Store α, store.claim? buffer = none →
      store.reading? buffer = none := by
    intro store none
    rw [reading?_eq, none]
    rfl
  refine ⟨⟨dropped.valid, Nat.le_trans frame.nextIndex dropped.nextIndex, ?_, ?_, ?_⟩, others⟩
  · intro other outside
    by_cases same : buffer = other
    · rw [← same, gone, absent]
    · rw [(others other same).1, frame.claims other]
      rintro (member | rfl)
      · exact outside member
      · exact same rfl
  · intro other claim outside claimed leased
    have different : buffer ≠ other := by
      rintro rfl
      rw [absent] at claimed
      cases claimed
    have notMade : other ∉ made ∪ {buffer} := by
      rintro (member | rfl)
      · exact outside member
      · exact different rfl
    have still : after.claim? other = some claim := by
      rw [frame.claims other notMade, claimed]
    rw [dropped.pinned other claim (Ne.symm different) still leased,
      frame.pinned other claim notMade claimed leased]
  · intro other outside unwritten
    by_cases same : buffer = other
    · rw [← same, noReading _ gone, noReading _ absent]
    · rw [(others other same).2]
      refine frame.readings other ?_ ?_
      · rintro (member | rfl)
        · exact outside member
        · exact same rfl
      · rintro (member | rfl)
        · exact unwritten member
        · exact same rfl

section

variable
    {β : Type}
    {written failedWritten : Set BufferId}
    {holds : Store α → Prop}
    (kept : ∀ length, Preserves holds (allocate length : Action α BufferId))
    (done : β → (BufferId → Option (Array α)) → Prop)
    (failed : Error → (BufferId → Option (Array α)) → Prop)

include kept

/-- An action with a buffer of its own, of which nothing is left. -/
theorem ends_withBuffer
    {body : BufferId → Action α β}
    (valid : before.Valid)
    (held : holds before)
    (length : Nat)
    (stable : ∀ first second,
      (∀ other, before.claim? other ≠ none → second other = first other) →
      (∀ answer, done answer first → done answer second) ∧
        ∀ reason, failed reason first → failed reason second)
    (run : ∀ buffer middle, before.claim? buffer = none → Frame {buffer} ∅ before middle →
      middle.claim? buffer = some (.fresh length) → holds middle →
      Ends (body buffer) middle
        (fun answer after => Frame ∅ (written ∪ {buffer}) middle after ∧
          done answer after.reading?)
        (fun reason after => Frame ∅ (failedWritten ∪ {buffer}) middle after ∧
          failed reason after.reading?)) :
    Ends (withBuffer length body) before
      (fun answer after => Frame ∅ written before after ∧ done answer after.reading?)
      (fun reason after => Frame ∅ failedWritten before after ∧ failed reason after.reading?) := by
  unfold withBuffer
  rw [ends_bind_iff]
  refine ((kept length before held).and (ends_allocate valid length)).mono ?_
    fun _ _ ends => ends.2
  rintro buffer middle ⟨heldInside, absent, made, fresh, -⟩
  have together : ∀ {some : Set BufferId} {after : Store α},
      Frame ∅ (some ∪ {buffer}) middle after →
      Frame ∅ some before (after.drop buffer) ∧ ∀ other, before.claim? other ≠ none →
        (after.drop buffer).reading? other = after.reading? other := by
    intro some after frame
    have whole : Frame (∅ ∪ {buffer}) (some ∪ {buffer}) before after := by
      refine (made.trans frame).mono ?_ ?_
      · rw [Set.union_empty, Set.empty_union]
      · rw [Set.empty_union]
    have still : after.claim? buffer = Option.some (.fresh length) := by
      rw [frame.claims buffer (Set.notMem_empty _), fresh]
    obtain ⟨dropped, others⟩ := frame_drop_fresh absent whole still
    refine ⟨dropped, fun other live => (others other ?_).2⟩
    rintro rfl
    exact live absent
  rw [ends_followedBy_iff]
  refine (run buffer middle absent made fresh heldInside).mono ?_ ?_
  · rintro answer after ⟨frame, holds⟩
    obtain ⟨dropped, same⟩ := together frame
    exact ⟨dropped, (stable _ _ same).1 answer holds⟩
  · rintro reason after ⟨frame, holds⟩
    obtain ⟨dropped, same⟩ := together frame
    exact ⟨dropped, (stable _ _ same).2 reason holds⟩

/-- An action with several buffers of its own. -/
theorem ends_withBuffers
    {lengths : List Nat}
    {body : List BufferId → Action α β}
    (valid : before.Valid)
    (held : holds before)
    (stable : ∀ first second,
      (∀ other, before.claim? other ≠ none → second other = first other) →
      (∀ answer, done answer first → done answer second) ∧
        ∀ reason, failed reason first → failed reason second)
    (run : ∀ buffers middle, buffers.Nodup → (∀ buffer ∈ buffers, before.claim? buffer = none) →
      Frame { buffer | buffer ∈ buffers } ∅ before middle →
      List.Forall₂ (fun buffer length => middle.claim? buffer = some (.fresh length))
        buffers lengths → holds middle →
      Ends (body buffers) middle
        (fun answer after => Frame ∅ (written ∪ { buffer | buffer ∈ buffers }) middle after ∧
          done answer after.reading?)
        (fun reason after => Frame ∅ (failedWritten ∪ { buffer | buffer ∈ buffers }) middle after ∧
          failed reason after.reading?)) :
    Ends (withBuffers lengths body) before
      (fun answer after => Frame ∅ written before after ∧ done answer after.reading?)
      (fun reason after => Frame ∅ failedWritten before after ∧ failed reason after.reading?) := by
  induction lengths generalizing before body written failedWritten with
  | nil =>
    have empty : ({ buffer | buffer ∈ ([] : List BufferId) } : Set BufferId) = ∅ := by
      ext other
      simp
    have ends := run [] before List.nodup_nil nofun
      (by rw [empty]; exact Frame.refl valid) .nil held
    rw [empty, Set.union_empty, Set.union_empty] at ends
    exact ends
  | cons length lengths step =>
    rw [withBuffers]
    refine ends_withBuffer kept done failed valid held length stable ?_
    intro first middle absent made fresh heldInside
    have later : ∀ buffers : List BufferId, ∀ some : Set BufferId,
        some ∪ { buffer | buffer ∈ first :: buffers } =
          some ∪ {first} ∪ { buffer | buffer ∈ buffers } := by
      intro buffers some
      ext other
      simp only [Set.mem_union, Set.mem_ofPred_eq, Set.mem_singleton_iff, List.mem_cons, or_assoc]
    refine step made.valid heldInside ?_ ?_
    · intro one other same
      refine stable one other fun buffer live => same buffer ?_
      have different : buffer ∉ ({first} : Set BufferId) := by
        rintro rfl
        exact live absent
      rwa [made.claims buffer different]
    · intro buffers inner distinct newer frame claims heldInner
      have notFirst : first ∉ buffers := by
        intro member
        rw [newer first member] at fresh
        cases fresh
      have ends := run (first :: buffers) inner (List.nodup_cons.2 ⟨notFirst, distinct⟩)
        ?_ ?_ ?_ heldInner
      · rw [later, later] at ends
        exact ends
      · intro buffer member
        rcases List.mem_cons.1 member with rfl | member
        · exact absent
        · rw [← made.claims buffer, newer buffer member]
          intro same
          rw [Set.mem_singleton_iff.1 same] at member
          exact notFirst member
      · refine (made.trans frame).mono ?_ ?_
        · rintro other (rfl | member)
          · exact List.mem_cons_self
          · exact List.mem_cons_of_mem _ member
        · rw [Set.empty_union]
      · refine .cons ?_ claims
        rw [frame.claims first notFirst, fresh]

end

end Elementwise.Store
