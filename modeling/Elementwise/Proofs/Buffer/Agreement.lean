import Elementwise.Proofs.Agreement
import Elementwise.Proofs.Buffer.Launch
import Elementwise.Proofs.Buffer.Recency

/-!
# Stores that differ in where their buffers are

Two stores are twins if their buffers have the same claims and read the same,
and their next buffers get the same name.  Neither the tiers nor the accelerators
behind them need to have anything in common.  Every action of which operations are
built gives the same answer in twins and leaves twins behind, as long as it
succeeds in both.

The blocks behind a buffer differ between twins, so launches are compared by the
buffers whose blocks they read and write.
-/

namespace Elementwise.Store

variable
    {α β γ : Type}
    [Arithmetic α]
    {left right after afterwards : Store α}
    {buffer : BufferId}

/-- Stores that only differ in where their buffers are. -/
structure Twin (left right : Store α) : Prop where
  valid : left.Valid
  validOther : right.Valid
  nextIndex : right.nextIndex = left.nextIndex
  claim? : right.claim? = left.claim?
  reading? : right.reading? = left.reading?

namespace Twin

theorem symm (twin : Twin left right) : Twin right left :=
  ⟨twin.validOther, twin.valid, twin.nextIndex.symm, twin.claim?.symm, twin.reading?.symm⟩

/-- Steps that leave the same alone and agree on the rest. -/
theorem step
    {made written : Set BufferId}
    (twin : Twin left right)
    (frame : Frame made written left after)
    (frameOther : Frame made written right afterwards)
    (nextIndex : afterwards.nextIndex = after.nextIndex)
    (claims : ∀ buffer ∈ made, afterwards.claim? buffer = after.claim? buffer)
    (readings : ∀ buffer, buffer ∈ made ∨ buffer ∈ written →
      afterwards.reading? buffer = after.reading? buffer) :
    Twin after afterwards where
  valid := frame.valid
  validOther := frameOther.valid
  nextIndex := nextIndex
  claim? := by
    funext buffer
    by_cases inside : buffer ∈ made
    · exact claims buffer inside
    · rw [frame.claims buffer inside, frameOther.claims buffer inside, twin.claim?]
  reading? := by
    funext buffer
    by_cases changed : buffer ∈ made ∨ buffer ∈ written
    · exact readings buffer changed
    · rw [not_or] at changed
      rw [frame.readings buffer changed.1 changed.2,
        frameOther.readings buffer changed.1 changed.2, twin.reading?]

/-- A step of one store alone that changes nothing that could be noticed. -/
theorem step_left
    (twin : Twin left right)
    (frame : Frame ∅ ∅ left after)
    (nextIndex : after.nextIndex = left.nextIndex) :
    Twin after right :=
  twin.step frame (.refl twin.validOther) (twin.nextIndex.trans nextIndex.symm) nofun
    fun _ never => never.elim nofun nofun

end Twin

/-! ## Leases and holders -/

theorem nextIndex_reclaim
    (store : Store α) :
    (store.reclaim buffer).nextIndex = store.nextIndex := by
  unfold reclaim
  split
  · rfl
  · split <;> rfl

theorem nextIndex_replace
    (store : Store α)
    (contents : Contents α) :
    (store.replace buffer contents).nextIndex = store.nextIndex := by
  unfold replace
  split <;> rfl

/-- The name of the next buffer is given out by allocations only. -/
theorem enduring_nextIndex (index : Nat) :
    Enduring (fun store : Store α => store.nextIndex = index) where
  accelerator _ _ same := same
  replace store _ contents same := (nextIndex_replace store contents).trans same
  touch _ _ same := same
  pin _ _ same := same
  unpin _ _ same := (nextIndex_reclaim _).trans same

namespace Twin

theorem pin (twin : Twin left right) : Twin (left.pin buffer) (right.pin buffer) := by
  refine twin.step (frame_pin twin.valid) (frame_pin twin.validOther) twin.nextIndex ?_ ?_
  · intro other _
    rw [claim?_pin, claim?_pin, twin.claim?]
  · intro other _
    rw [reading?_pin, reading?_pin, twin.reading?]

/-- A claim is taken back in both. -/
theorem reclaim
    {change : Buffer α → Buffer α}
    {revise : Claim → Claim}
    (twin : Twin left right)
    (revises : Revises change revise) :
    Twin ((left.revised buffer change).reclaim buffer)
      ((right.revised buffer change).reclaim buffer) := by
  have nextIndex : ((right.revised buffer change).reclaim buffer).nextIndex =
      ((left.revised buffer change).reclaim buffer).nextIndex := by
    rw [nextIndex_reclaim, nextIndex_reclaim]
    exact twin.nextIndex
  have same : ((right.revised buffer change).reclaim buffer).claim? buffer =
        ((left.revised buffer change).reclaim buffer).claim? buffer ∧
      ((right.revised buffer change).reclaim buffer).reading? buffer =
        ((left.revised buffer change).reclaim buffer).reading? buffer := by
    cases claimed : left.claim? buffer with
    | none =>
      have claimedOther : right.claim? buffer = none := by rw [twin.claim?, claimed]
      rw [reclaim_of_absent revises claimed, reclaim_of_absent revises claimedOther,
        claim?_revised revises, claim?_revised revises, reading?_revised revises,
        reading?_revised revises, twin.claim?, twin.reading?]
      exact ⟨rfl, rfl⟩
    | some claim =>
      have claimedOther : right.claim? buffer = some claim := by rw [twin.claim?, claimed]
      have claims := (frame_reclaim twin.valid revises claimed).2
      have claimsOther := (frame_reclaim twin.validOther revises claimedOther).2
      refine ⟨claimsOther.trans claims.symm, ?_⟩
      by_cases wanted : (revise claim).Wanted
      · rw [(contents?_reclaim revises claimed wanted).2,
          (contents?_reclaim revises claimedOther wanted).2, twin.reading?]
      · rw [reading?_eq, reading?_eq, claims, claimsOther, if_neg wanted]
        rfl
  refine twin.step (frame_reclaim_only twin.valid revises)
    (frame_reclaim_only twin.validOther revises) nextIndex ?_ ?_
  · rintro _ rfl
    exact same.1
  · rintro _ (rfl | never)
    · exact same.2
    · exact absurd never (Set.notMem_empty _)

theorem unpin (twin : Twin left right) : Twin (left.unpin buffer) (right.unpin buffer) :=
  twin.reclaim revises_unpin

theorem drop (twin : Twin left right) : Twin (left.drop buffer) (right.drop buffer) :=
  twin.reclaim revises_drop

end Twin

/-! ## Accesses -/

/-- Two runs of actions that make no buffer and leave the same in what they write. -/
theorem bothEnd_of_frames
    {first : Action α β}
    {second : Action α γ}
    {written : Set BufferId}
    {done : β → Store α → Prop}
    {doneOther : γ → Store α → Prop}
    {failed failedOther : Error → Store α → Prop}
    {result : β → γ → Prop}
    (twin : Twin left right)
    (ends : Ends first left
      (fun answer after => Frame ∅ written left after ∧ done answer after) failed)
    (endsOther : Ends second right
      (fun answer after => Frame ∅ written right after ∧ doneOther answer after) failedOther)
    (keeps : Preserves (fun store => store.nextIndex = left.nextIndex) first)
    (keepsOther : Preserves (fun store => store.nextIndex = right.nextIndex) second)
    (same : ∀ answer other after afterwards, done answer after → doneOther other afterwards →
      result answer other ∧
        ∀ buffer ∈ written, afterwards.reading? buffer = after.reading? buffer) :
    BothEnd first second left right fun answer other after afterwards =>
      result answer other ∧ Twin after afterwards := by
  refine bothEnd_of_ends (ends.and (keeps left rfl)) (endsOther.and (keepsOther right rfl)) ?_
  rintro answer other after afterwards ⟨⟨frame, holds⟩, index⟩
    ⟨⟨frameOther, holdsOther⟩, indexOther⟩
  obtain ⟨equal, readings⟩ := same answer other after afterwards holds holdsOther
  refine ⟨equal, twin.step frame frameOther ?_ nofun ?_⟩
  · rw [index, indexOther, twin.nextIndex]
  · rintro buffer (never | inside)
    · exact absurd never (Set.notMem_empty _)
    · exact readings buffer inside

theorem respects_check (result : Except Error β) : Respects Twin (check result : Action α β) := by
  cases result with
  | ok answer => exact .pure answer
  | error reason => exact .throw reason

/-- A buffer is as long in one twin as in the other. -/
theorem bothEnd_find (twin : Twin left right) :
    BothEnd (find buffer) (find buffer) left right fun found other after afterwards =>
      after = left ∧ afterwards = right ∧ other.length = found.length := by
  have ends : ∀ store : Store α, Ends (find buffer) store
      (fun found after => after = store ∧ store.claim? buffer = some found.claim)
      fun _ _ => True :=
    fun store => ends_find (fun found claimed _ => ⟨rfl, claimed⟩) fun _ => trivial
  refine bothEnd_of_ends (ends left) (ends right) ?_
  rintro found other _ _ ⟨rfl, claimed⟩ ⟨rfl, claimedOther⟩
  rw [twin.claim?, claimed] at claimedOther
  exact ⟨rfl, rfl, (congrArg Claim.length (Option.some.inj claimedOther)).symm⟩

theorem respects_read : Respects Twin (read buffer : Action α (Array α)) := by
  intro left right twin
  refine bothEnd_of_frames twin (ends_read twin.valid) (ends_read twin.validOther)
    (enduring_nextIndex _).read (enduring_nextIndex _).read ?_
  intro values others after afterwards reads readsOther
  rw [twin.reading?, reads] at readsOther
  exact ⟨(Option.some.inj readsOther).symm, nofun⟩

theorem respects_write (values : Array α) : Respects Twin (write buffer values) := by
  intro left right twin
  refine bothEnd_of_frames twin (ends_write twin.valid values) (ends_write twin.validOther values)
    ((enduring_nextIndex _).write values) ((enduring_nextIndex _).write values) ?_
  rintro _ _ after afterwards ⟨reads, -⟩ ⟨readsOther, -⟩
  refine ⟨rfl, ?_⟩
  rintro _ rfl
  rw [reads, readsOther]

theorem respects_release : Respects Twin (release buffer : Action α Unit) := by
  intro left right twin
  refine bothEnd_of_frames twin (ends_release twin.valid) (ends_release twin.validOther)
    ((enduring_nextIndex _).ensure .empty) ((enduring_nextIndex _).ensure .empty) ?_
  rintro _ _ after afterwards ⟨held, claimed, reads⟩ ⟨heldOther, claimedOther, readsOther⟩
  rw [twin.claim?, claimed] at claimedOther
  cases claimedOther
  refine ⟨rfl, ?_⟩
  rintro _ rfl
  rw [reads, readsOther]

theorem respects_update
    (change : (size : Nat) → Vector α size → Vector α size) :
    Respects Twin (update buffer change) := by
  intro left right twin
  refine bothEnd_of_frames twin (ends_update twin.valid change) (ends_update twin.validOther change)
    ((enduring_nextIndex _).update change) ((enduring_nextIndex _).update change) ?_
  rintro _ _ after afterwards ⟨values, before, rfl, reads⟩ ⟨others, beforeOther, rfl, readsOther⟩
  rw [twin.reading?, before] at beforeOther
  cases beforeOther
  refine ⟨rfl, ?_⟩
  rintro _ rfl
  rw [reads, readsOther]

theorem respects_fill (value : α) : Respects Twin (fill buffer value) := by
  intro left right twin
  refine bothEnd_of_frames twin (ends_fill twin.valid value) (ends_fill twin.validOther value)
    ((enduring_nextIndex _).fill value) ((enduring_nextIndex _).fill value) ?_
  rintro _ _ after afterwards ⟨held, claimed, reads⟩ ⟨heldOther, claimedOther, readsOther⟩
  rw [twin.claim?, claimed] at claimedOther
  cases claimedOther
  refine ⟨rfl, ?_⟩
  rintro _ rfl
  rw [reads, readsOther]

/-- Moves that concern one store alone are not noticed. -/
theorem twin_offload
    (other : Store α)
    (target : Nat)
    (device : Option DeviceId) :
    Preserves (fun store => Twin store other) (offload target device : Action α Nat) := by
  intro store twin
  exact ((ends_offload twin.valid target device).and
    ((enduring_nextIndex _).retreating.offload target device store rfl)).mono
      (fun _ _ moved => twin.step_left moved.1.1 moved.2) fun _ _ never => never.1.elim

theorem twin_ensure
    (other : Store α)
    {tier : Tier}
    (stored : tier ≠ .empty) :
    Preserves (fun store => Twin store other) (ensure buffer tier : Action α Unit) := by
  intro store twin
  exact ((ends_ensure twin.valid stored).and
    ((enduring_nextIndex _).ensure tier store rfl)).mono
      (fun _ _ moved => twin.step_left moved.1 moved.2)
      fun _ _ moved => twin.step_left moved.1 moved.2

/-! ## New buffers -/

/-- A new buffer gets the same name in both. -/
theorem Twin.register
    (twin : Twin left right)
    {length : Nat}
    {contents : Contents α}
    (fits : ∀ pool : Pool α, contents.Fits pool length)
    (offDevice : ∀ block, contents ≠ .device block) :
    (right.register length contents).1 = (left.register length contents).1 ∧
      Twin (left.register length contents).2 (right.register length contents).2 := by
  have names : (right.register length contents).1 = (left.register length contents).1 :=
    congrArg BufferId.mk twin.nextIndex
  obtain ⟨frame, reads⟩ := frame_register twin.valid (fits _) offDevice
  obtain ⟨frameOther, readsOther⟩ := frame_register twin.validOther (fits _) offDevice
  rw [names] at frameOther readsOther
  refine ⟨names, twin.step frame frameOther ?_ ?_ ?_⟩
  · exact congrArg (· + 1) twin.nextIndex
  · intro other _
    rw [claim?_register, claim?_register, names, twin.claim?]
  · rintro _ (rfl | never)
    · rw [reads, readsOther]
      cases contents with
      | empty => rfl
      | host values => rfl
      | device block => exact absurd rfl (offDevice block)
    · exact absurd never (Set.notMem_empty _)

theorem respects_allocate (length : Nat) : Respects Twin (allocate length : Action α BufferId) :=
  .modifyGet fun _ _ twin => twin.register (fun _ => trivial) nofun

theorem respects_allocateFrom (values : Array α) : Respects Twin (allocateFrom values) :=
  .modifyGet fun _ _ twin => twin.register (fun _ => rfl) nofun

omit [Arithmetic α] in
theorem bothEnd_followedBy
    {first : Action α β}
    {second : Action α γ}
    {change : Store α → Store α}
    {done : β → γ → Store α → Store α → Prop}
    (both : BothEnd first second left right fun answer other after afterwards =>
      done answer other (change after) (change afterwards)) :
    BothEnd (first.followedBy change) (second.followedBy change) left right done := by
  intro answer other after afterwards ran ranOther
  unfold Action.followedBy at ran ranOther
  split at ran
  next outcome =>
    cases ran
    split at ranOther
    next outcomeOther =>
      cases ranOther
      exact both _ _ _ _ outcome outcomeOther
    · cases ranOther
  · cases ran

omit [Arithmetic α] in
theorem bothEnd_unlessDone
    {first : Action α β}
    {second : Action α γ}
    {change : Store α → Store α}
    {done : β → γ → Store α → Store α → Prop}
    (both : BothEnd first second left right done) :
    BothEnd (first.unlessDone change) (second.unlessDone change) left right done := by
  intro answer other after afterwards ran ranOther
  unfold Action.unlessDone at ran ranOther
  split at ran
  next outcome =>
    cases ran
    split at ranOther
    next outcomeOther =>
      cases ranOther
      exact both _ _ _ _ outcome outcomeOther
    · cases ranOther
  · cases ran

theorem respects_withBuffers
    {body : List BufferId → Action α β}
    (lengths : List Nat)
    (each : ∀ buffers, Respects Twin (body buffers)) :
    Respects Twin (withBuffers lengths body) := by
  induction lengths generalizing body with
  | nil => exact each []
  | cons length lengths step =>
    refine .bind (respects_allocate length) fun buffer left right twin => bothEnd_followedBy ?_
    refine (step (fun buffers => each (buffer :: buffers)) left right twin).mono ?_
    rintro answer _ after afterwards ⟨rfl, twin⟩
    exact ⟨rfl, twin.drop⟩

/-! ## Leases -/

section

variable
    {first : Action α β}
    {second : Action α γ}
    {result : β → γ → Prop}

/-- Two runs while the same buffers are leased. -/
theorem bothEnd_withLeasesInOrder
    {buffers : List BufferId}
    (twin : Twin left right)
    (run : ∀ inside insideOther, Twin inside insideOther → Leased buffers left inside →
      Leased buffers right insideOther →
      BothEnd first second inside insideOther fun answer other after afterwards =>
        result answer other ∧ Twin after afterwards) :
    BothEnd (withLeasesInOrder buffers first) (withLeasesInOrder buffers second) left right
      fun answer other after afterwards => result answer other ∧ Twin after afterwards := by
  induction buffers generalizing left right with
  | nil => exact run left right twin (.refl twin.valid) (.refl twin.validOther)
  | cons buffer buffers step =>
    refine bothEnd_bind (bothEnd_of_ends
      ((ends_lease twin.valid).and ((enduring_nextIndex _).lease .accelerator left rfl))
      ((ends_lease twin.validOther).and ((enduring_nextIndex _).lease .accelerator right rfl)) ?_)
    rintro _ _ _ _ ⟨⟨middle, frame, onTier, rfl⟩, index⟩
      ⟨⟨middleOther, frameOther, onTierOther, rfl⟩, indexOther⟩
    obtain ⟨held, claimed⟩ := exists_claim onTier.choose_spec.1
    obtain ⟨heldOther, claimedOther⟩ := exists_claim onTierOther.choose_spec.1
    have twins : Twin middle middleOther :=
      twin.step frame frameOther (indexOther.trans (twin.nextIndex.trans index.symm)) nofun
        fun _ never => never.elim nofun nofun
    refine bothEnd_followedBy ((step twins.pin fun inside insideOther twins leased leasedOther =>
      run inside insideOther twins (leased.cons frame onTier claimed)
        (leasedOther.cons frameOther onTierOther claimedOther)).mono ?_)
    rintro answer other after afterwards ⟨same, twins⟩
    exact ⟨same, twins.unpin⟩

variable
    (twin : Twin left right)

include twin

theorem bothEnd_withLease
    (run : ∀ inside insideOther, Twin inside insideOther → Leased [buffer] left inside →
      Leased [buffer] right insideOther →
      BothEnd first second inside insideOther fun answer other after afterwards =>
        result answer other ∧ Twin after afterwards) :
    BothEnd (withLease buffer .accelerator first) (withLease buffer .accelerator second) left right
      fun answer other after afterwards => result answer other ∧ Twin after afterwards :=
  bothEnd_withLeasesInOrder twin run

/-- Two leases one inside the other, of whatever buffers. -/
theorem bothEnd_withLeasePair
    {other : BufferId}
    (run : ∀ inside insideOther, Twin inside insideOther → Leased [buffer, other] left inside →
      Leased [buffer, other] right insideOther →
      BothEnd first second inside insideOther fun answer other after afterwards =>
        result answer other ∧ Twin after afterwards) :
    BothEnd (withLease buffer .accelerator (withLease other .accelerator first))
      (withLease buffer .accelerator (withLease other .accelerator second)) left right
      fun answer other after afterwards => result answer other ∧ Twin after afterwards :=
  bothEnd_withLeasesInOrder twin run

theorem bothEnd_withLeases
    {buffers : List BufferId}
    (run : ∀ inside insideOther, Twin inside insideOther → Leased buffers left inside →
      Leased buffers right insideOther →
      BothEnd first second inside insideOther fun answer other after afterwards =>
        result answer other ∧ Twin after afterwards) :
    BothEnd (withLeases buffers first) (withLeases buffers second) left right
      fun answer other after afterwards => result answer other ∧ Twin after afterwards :=
  bothEnd_withLeasesInOrder twin fun inside insideOther twin leased leasedOther =>
    run inside insideOther twin (leased.perm (List.mergeSort_perm _ _))
      (leasedOther.perm (List.mergeSort_perm _ _))

end

section

variable
    {inside insideOther : Store α}
    {buffers : List BufferId}
    (leased : Leased buffers left inside)
    (leasedOther : Leased buffers right insideOther)

include leased leasedOther

theorem bothEnd_blockOf
    (member : buffer ∈ buffers) :
    BothEnd (blockOf buffer) (blockOf buffer) inside insideOther
      fun block other after afterwards => after = inside ∧ afterwards = insideOther ∧
        inside.Pins buffer block ∧ insideOther.Pins buffer other := by
  have ends : ∀ {base store : Store α}, Leased buffers base store →
      Ends (blockOf buffer) store (fun block after => after = store ∧ store.Pins buffer block)
        fun _ _ => True := fun leased =>
    (ends_blockOf (leased.onAccelerator buffer member)).mono
      (fun _ _ found => ⟨found.1, leased.pins member found.2⟩) fun _ _ failed => failed
  refine bothEnd_of_ends (ends leased) (ends leasedOther) ?_
  rintro _ _ _ _ ⟨rfl, pins⟩ ⟨rfl, pinsOther⟩
  exact ⟨rfl, rfl, pins, pinsOther⟩

theorem bothEnd_mapM_blockOf
    {some : List BufferId}
    (among : ∀ buffer ∈ some, buffer ∈ buffers) :
    BothEnd (some.mapM blockOf) (some.mapM blockOf) inside insideOther
      fun blocks others after afterwards => after = inside ∧ afterwards = insideOther ∧
        List.Forall₂ inside.Pins some blocks ∧ List.Forall₂ insideOther.Pins some others := by
  have ends : ∀ {base store : Store α}, Leased buffers base store →
      Ends (some.mapM blockOf) store
        (fun blocks after => after = store ∧ List.Forall₂ store.Pins some blocks)
        fun _ _ => True := fun leased => ends_mapM_blockOf leased among
  refine bothEnd_of_ends (ends leased) (ends leasedOther) ?_
  rintro _ _ _ _ ⟨rfl, pins⟩ ⟨rfl, pinsOther⟩
  exact ⟨rfl, rfl, pins, pinsOther⟩

end

/-! ## Launches -/

/-- A buffer has blocks of its own length in both. -/
theorem Twin.block_length_eq
    (twin : Twin left right)
    {block other : Block}
    (stored : left.contents? buffer = some (.device block))
    (storedOther : right.contents? buffer = some (.device other)) :
    block.length = other.length := by
  obtain ⟨claim, claimed⟩ := exists_claim stored
  have claimedOther : right.claim? buffer = some claim := by rw [twin.claim?, claimed]
  obtain ⟨length, -⟩ := twin.valid.fits buffer claim _ claimed stored
  obtain ⟨lengthOther, -⟩ := twin.validOther.fits buffer claim _ claimedOther storedOther
  exact length.trans lengthOther.symm

/-- The block behind one buffer gets the same columns wherever it is. -/
theorem get?_writeColumns_congr
    {targets : List BufferId}
    {outputs others : List Block}
    {handle handleOther column : Nat}
    {rows : Array (Array α)}
    {blocks blocksOther : Table Nat (Array α)}
    (written : List.Forall₂ (fun target output => output.handle = handle ↔ target = buffer)
      targets outputs)
    (writtenOther : List.Forall₂
      (fun target output => output.handle = handleOther ↔ target = buffer) targets others)
    (same : blocksOther.get? handleOther = blocks.get? handle) :
    (Pool.writeColumns rows column others blocksOther).get? handleOther =
      (Pool.writeColumns rows column outputs blocks).get? handle := by
  induction written generalizing others column blocks blocksOther with
  | nil =>
    cases writtenOther
    exact same
  | cons first _ step =>
    cases writtenOther with
    | cons firstOther rest =>
      refine step rest ?_
      simp only [Table.get?_modify, first, firstOther, same]

omit [Arithmetic α] in
/-- A block is behind a buffer just if it has the handle of its block. -/
theorem handle_eq_iff
    (valid : left.Valid)
    {targets : List BufferId}
    {outputs : List Block}
    {block : Block}
    (held : List.Forall₂ (fun buffer block => left.contents? buffer = some (.device block))
      targets outputs)
    (stored : left.contents? buffer = some (.device block)) :
    List.Forall₂ (fun target output => output.handle = block.handle ↔ target = buffer)
      targets outputs := by
  refine held.imp fun target output behind =>
    ⟨valid.apart target buffer output block behind stored, ?_⟩
  rintro rfl
  rw [stored] at behind
  cases behind
  rfl

/-- Copies between blocks that are behind the same buffers. -/
theorem matches_copy
    {source target : BufferId}
    {input inputOther output outputOther : Block}
    (twin : Twin left right)
    (read : left.contents? source = some (.device input))
    (readOther : right.contents? source = some (.device inputOther))
    (written : left.contents? target = some (.device output))
    (writtenOther : right.contents? target = some (.device outputOther)) :
    Matches Twin (perform (Accelerator.copy input output))
      (perform (Accelerator.copy inputOther outputOther)) left right := by
  refine bothEnd_of_frames twin (ends_copy twin.valid read written)
    (ends_copy twin.validOther readOther writtenOther)
    ((enduring_nextIndex _).perform _) ((enduring_nextIndex _).perform _) ?_
  rintro _ _ after afterwards copied copiedOther
  refine ⟨rfl, ?_⟩
  rintro _ rfl
  rw [copied, copiedOther, twin.reading?]

section

variable
    {sources targets : List BufferId}
    {inputs inputsOther outputs outputsOther : List Block}
    (twin : Twin left right)
    (read : List.Forall₂ (fun buffer block => left.contents? buffer = some (.device block))
      sources inputs)
    (readOther : List.Forall₂ (fun buffer block => right.contents? buffer = some (.device block))
      sources inputsOther)

include twin read readOther

/-- Launches on blocks that are behind the same buffers do the same to these. -/
theorem matches_launch
    {ω : Type}
    {length : Nat}
    {kernel : Kernel α ω}
    (written : List.Forall₂ (fun buffer block => left.contents? buffer = some (.device block))
      targets outputs)
    (writtenOther : List.Forall₂ (fun buffer block => right.contents? buffer = some (.device block))
      targets outputsOther) :
    Matches Twin (perform (Accelerator.launch length inputs outputs kernel))
      (perform (Accelerator.launch length inputsOther outputsOther kernel)) left right := by
  refine bothEnd_of_frames twin (ends_launchBlocks twin.valid read written)
    (ends_launchBlocks twin.validOther readOther writtenOther)
    ((enduring_nextIndex _).perform _) ((enduring_nextIndex _).perform _) ?_
  rintro _ _ after afterwards ⟨contents, views, rows, viewed, ran, blocks⟩
    ⟨contentsOther, viewsOther, rowsOther, viewedOther, ranOther, blocksOther⟩
  rw [twin.reading?] at viewedOther
  have sameViews : viewsOther = views :=
    List.right_unique_forall₂' (fun _ _ _ first second => Option.some.inj (first.symm.trans second))
      viewedOther viewed
  have sameEmpty : outputsOther.isEmpty = outputs.isEmpty := by
    cases written <;> cases writtenOther <;> rfl
  rw [sameViews, sameEmpty, ran] at ranOther
  cases ranOther
  refine ⟨rfl, fun buffer member => ?_⟩
  obtain ⟨block, -, stored⟩ := exists_of_forall₂ written buffer member
  obtain ⟨blockOther, -, storedOther⟩ := exists_of_forall₂ writtenOther buffer member
  have reads := reading?_of_device (contents ▸ stored : after.contents? buffer = _)
  have readsOther :=
    reading?_of_device (contentsOther ▸ storedOther : afterwards.contents? buffer = _)
  rw [reads, readsOther, blocks, blocksOther]
  refine get?_writeColumns_congr (handle_eq_iff twin.valid written stored)
    (handle_eq_iff twin.validOther writtenOther storedOther) ?_
  rw [← reading?_of_device stored, ← reading?_of_device storedOther, twin.reading?]

end

end Elementwise.Store
