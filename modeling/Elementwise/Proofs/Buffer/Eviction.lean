import Elementwise.Proofs.Buffer.Room
import Elementwise.Proofs.Buffer.Recency

/-!
# Which buffers make room

The buffers that may be evicted form a queue: those on the accelerator that
nobody leases, the least recently used first.  Evictions go through the queue
from its head, move each buffer to the host whose download succeeds, and stop
as soon as the buffers that were moved have enough elements together.

A download succeeds just if the accelerator is not scheduled to fail that call.
As stamps differ, there is one queue only, in whatever order the registry lists
its buffers.
-/

namespace Elementwise.Store

variable
    {α β : Type}
    [Arithmetic α]
    {make : Make}
    {others : Others α}
    {store before middle after : Store α}
    {buffer : BufferId}
    {device : Option DeviceId}

/-! ## The queue -/

/-- The buffers that may be evicted, the least recently used first. -/
structure Queue
    (store : Store α)
    (device : Option DeviceId)
    (queue : List BufferId) : Prop where
  candidates : ∀ buffer, buffer ∈ queue ↔ ∃ found block,
    store.buffers.get? buffer = some found ∧ found.leases = 0 ∧
      found.contents = .device block ∧ ∀ wanted, device = some wanted → block.device = wanted
  ordered : queue.Pairwise fun earlier later => ∃ older newer,
    store.stamp? earlier = some older ∧ store.stamp? later = some newer ∧ older < newer

omit [Arithmetic α] in
theorem Queue.nodup
    {queue : List BufferId}
    (isQueue : store.Queue device queue) :
    queue.Nodup := by
  refine isQueue.ordered.imp ?_
  rintro earlier _ ⟨older, newer, first, second, less⟩ rfl
  rw [first] at second
  cases second
  exact Nat.lt_irrefl _ less

omit [Arithmetic α] in
/-- There is one queue only. -/
theorem Queue.unique
    {queue other : List BufferId}
    (isQueue : store.Queue device queue)
    (isOther : store.Queue device other) :
    queue = other := by
  have perm : queue.Perm other := (List.perm_ext_iff_of_nodup isQueue.nodup isOther.nodup).2
    fun buffer => (isQueue.candidates buffer).trans (isOther.candidates buffer).symm
  refine perm.eq_of_pairwise ?_ isQueue.ordered isOther.ordered
  rintro left right - - ⟨older, newer, first, second, less⟩
    ⟨laterOlder, laterNewer, third, fourth, more⟩
  rw [first] at fourth
  rw [second] at third
  cases third
  cases fourth
  exact absurd more (Nat.lt_asymm less)

omit [Arithmetic α] in
theorem mem_evictable_iff (accounted : store.Accounted make others) :
    buffer ∈ store.evictable device ↔ ∃ found block,
      store.buffers.get? buffer = some found ∧ found.leases = 0 ∧
        found.contents = .device block ∧ ∀ wanted, device = some wanted →
          block.device = wanted := by
  have entries : buffer ∈ store.evictable device ↔ ∃ found,
      (buffer ∈ store.registry ∧ store.buffers.get? buffer = some found) ∧
        found.isEvictable device = true := by
    simp only [evictable, List.mem_map, List.mem_mergeSort, List.mem_filter, Prod.exists,
      exists_and_right, exists_eq_right, mem_registered]
  rw [entries]
  constructor
  · rintro ⟨found, ⟨-, present⟩, fit⟩
    simp only [Buffer.isEvictable, Bool.and_eq_true, beq_iff_eq] at fit
    obtain ⟨⟨-, idle⟩, onDevice⟩ := fit
    split at onDevice
    next block contents =>
      refine ⟨found, block, present, idle, contents, ?_⟩
      rintro wanted rfl
      exact of_decide_eq_true onDevice |>.symm
    · cases onDevice
  · rintro ⟨found, block, present, idle, contents, matching⟩
    have stored : store.contents? buffer = some found.contents := by
      rw [contents?, present, Option.map_some]
    have located := accounted.located buffer _ stored
    rw [location?, present, contents] at located
    have location : found.location = .accelerator := Option.some.inj located
    refine ⟨found, ⟨accounted.listed buffer _ stored, present⟩, ?_⟩
    simp only [Buffer.isEvictable, location, idle, contents, BEq.rfl, Bool.true_and]
    cases device with
    | none => rfl
    | some wanted => simp [matching wanted rfl]

omit [Arithmetic α] in
/-- The buffers that may make room are the queue. -/
theorem queue_evictable
    (accounted : store.Accounted make others)
    (stamped : store.Stamped)
    (device : Option DeviceId) :
    store.Queue device (store.evictable device) where
  candidates _ := mem_evictable_iff accounted
  ordered := by
    have nodup := accounted.nodup_evictable device
    unfold evictable at nodup ⊢
    rw [List.Nodup, List.pairwise_map] at nodup
    rw [List.pairwise_map]
    have sorted : ((store.registered.filter (·.2.isEvictable device)).mergeSort
        fun left right => left.2.stamp ≤ right.2.stamp).Pairwise
          fun left right => decide (left.2.stamp ≤ right.2.stamp) = true := by
      refine List.pairwise_mergeSort (fun first second third earlier later => ?_)
        (fun first second => ?_) _
      · exact decide_eq_true (Nat.le_trans (of_decide_eq_true earlier) (of_decide_eq_true later))
      · rw [Bool.or_eq_true, decide_eq_true_iff, decide_eq_true_iff]
        exact Nat.le_total first.2.stamp second.2.stamp
    refine (nodup.and sorted).imp_of_mem ?_
    rintro ⟨first, found⟩ ⟨second, foundLater⟩ member memberLater ⟨different, le⟩
    rw [List.mem_mergeSort, List.mem_filter, mem_registered] at member memberLater
    have stamp : store.stamp? first = some found.stamp := by
      rw [stamp?, member.1.2, Option.map_some]
    have stampLater : store.stamp? second = some foundLater.stamp := by
      rw [stamp?, memberLater.1.2, Option.map_some]
    refine ⟨found.stamp, foundLater.stamp, stamp, stampLater, ?_⟩
    refine Nat.lt_of_le_of_ne (of_decide_eq_true le) fun same => different ?_
    exact stamped.distinct first second _ stamp (same ▸ stampLater)

/-! ## The order of the registry -/

/-- The same store, whose registry lists its buffers in another order. -/
def relisted (store : Store α) (listed : List BufferId) : Store α :=
  { store with registry := listed }

omit [Arithmetic α] in
theorem alike_relisted (store : Store α) (listed : List BufferId) :
    Alike store (store.relisted listed) :=
  ⟨rfl, rfl, rfl, rfl⟩

omit [Arithmetic α] in
theorem Accounted.relisted
    {listed : List BufferId}
    (accounted : store.Accounted make others)
    (perm : listed.Perm store.registry) :
    (store.relisted listed).Accounted make others where
  valid := (alike_relisted store listed).valid accounted.valid
  counted := accounted.counted
  made := accounted.made
  placed := accounted.placed
  held := accounted.held
  apart := accounted.apart
  located := accounted.located
  listed buffer contents stored := perm.mem_iff.2 (accounted.listed buffer contents stored)
  distinct := perm.nodup_iff.2 accounted.distinct
  older buffer member := accounted.older buffer (perm.mem_iff.1 member)

/-- An action does the same, whatever the order of the registry is. -/
def Oblivious (action : Action α β) : Prop :=
  ∀ store listed, action (store.relisted listed) =
    match action store with
    | .ok answer after => .ok answer (after.relisted listed)
    | .error reason after => .error reason (after.relisted listed)

namespace Oblivious

omit [Arithmetic α]

theorem pure (answer : β) : Oblivious (Pure.pure answer : Action α β) :=
  fun _ _ => rfl

theorem bind
    {γ : Type}
    {first : Action α β}
    {next : β → Action α γ}
    (here : Oblivious first)
    (there : ∀ answer, Oblivious (next answer)) :
    Oblivious (first >>= next) := by
  intro store listed
  simp only [Bind.bind, EStateM.bind, here store listed]
  cases first store with
  | ok answer after => exact there answer after listed
  | error reason after => rfl

theorem find : Oblivious (Store.find buffer : Action α (Buffer α)) := by
  intro store listed
  have same : (store.relisted listed).buffers = store.buffers := rfl
  simp only [Store.find, Bind.bind, EStateM.bind, MonadState.get, getThe, MonadStateOf.get,
    EStateM.get, same]
  cases store.buffers.get? buffer <;> rfl

theorem perform (call : Accelerator.Action α β) : Oblivious (Store.perform call) := by
  intro store listed
  have same : (store.relisted listed).accelerator = store.accelerator := rfl
  simp only [Store.perform, attempt, Bind.bind, EStateM.bind, same]
  cases call store.accelerator <;> rfl

end Oblivious

theorem oblivious_replace
    (buffer : BufferId)
    (contents : Contents α) :
    Oblivious (modify (·.replace buffer contents) : Action α PUnit) := by
  intro store listed
  have same : (store.relisted listed).replace buffer contents =
      (store.replace buffer contents).relisted listed := by
    unfold replace relisted
    cases store.buffers.get? buffer <;> rfl
  exact congrArg (EStateM.Result.ok PUnit.unit) same

theorem oblivious_moveToHost : Oblivious (moveToHost buffer : Action α Unit) := by
  refine .bind .find fun found => ?_
  split
  · exact .pure _
  · exact oblivious_replace buffer _
  · exact .bind (.perform _) fun _ => oblivious_replace buffer _

theorem oblivious_evict : Oblivious (evict buffer : Action α Nat) := by
  have moved : Oblivious
      (do let found ← find buffer; moveToHost buffer; pure found.length : Action α Nat) :=
    .bind .find fun _ => .bind oblivious_moveToHost fun _ => .pure _
  intro store listed
  have same := moved store listed
  unfold evict
  cases outcome : (do let found ← find buffer; moveToHost buffer; pure found.length :
      Action α Nat) store with
  | ok freed after =>
    rw [outcome] at same
    rw [same]
  | error reason after =>
    rw [outcome] at same
    rw [same]

theorem oblivious_evictUntil
    (target : Nat)
    (queue : List BufferId)
    (freed : Nat) :
    Oblivious (evictUntil target queue freed : Action α Nat) := by
  induction queue generalizing freed with
  | nil => exact .pure freed
  | cons buffer queue step =>
    rw [evictUntil]
    split
    · exact .pure freed
    · exact .bind oblivious_evict fun gained => step (freed + gained)

/-- Evictions do the same, in whatever order the registry lists the buffers. -/
theorem offload_relisted
    {listed : List BufferId}
    (accounted : store.Accounted make others)
    (stamped : store.Stamped)
    (perm : listed.Perm store.registry)
    (target : Nat)
    (device : Option DeviceId) :
    offload target device (store.relisted listed) =
      match offload target device store with
      | .ok freed after => .ok freed (after.relisted listed)
      | .error reason after => .error reason (after.relisted listed) := by
  have stampedToo : (store.relisted listed).Stamped :=
    stamped.of_stamps rfl fun _ _ found => found
  have isQueue := queue_evictable (accounted.relisted perm) stampedToo device
  have isQueueHere : store.Queue device ((store.relisted listed).evictable device) :=
    ⟨isQueue.candidates, isQueue.ordered⟩
  have same := isQueueHere.unique (queue_evictable accounted stamped device)
  have queued : ∀ store : Store α, offload target device store =
      evictUntil target (store.evictable device) 0 store := fun _ => rfl
  rw [queued, queued, same]
  have alike := oblivious_evictUntil target (store.evictable device) 0 store listed
  cases outcome : evictUntil target (store.evictable device) 0 store with
  | ok freed after =>
    rw [outcome] at alike
    exact alike
  | error reason after =>
    rw [outcome] at alike
    exact alike

/-! ## Downloads -/

/-- The download that comes after so many others is not scheduled to fail. -/
def Downloads (store : Store α) (later : Nat) : Prop :=
  store.accelerator.faults .download (store.accelerator.calls.get .download + later) = none

instance (store : Store α) (later : Nat) : Decidable (store.Downloads later) :=
  inferInstanceAs (Decidable (_ = none))

/-- The elements of the buffers whose downloads succeed, of which the first comes after so
many others. -/
def gains (store : Store α) : (later : Nat) → List BufferId → Nat
  | _, [] => 0
  | later, buffer :: buffers =>
      (if store.Downloads later then store.lengthOf buffer else 0) +
        gains store (later + 1) buffers

omit [Arithmetic α] in
/-- A call that the pool grants fails just if the schedule says so. -/
theorem ends_scheduled
    {method : Method}
    {act : Pool α → Except DeviceError (β × Pool α)}
    {answer : β}
    {pool : Pool α}
    (acted : act before.accelerator.pool = .ok (answer, pool)) :
    Ends (perform (Accelerator.call method act)) before
      (fun _ after =>
        before.accelerator.faults method (before.accelerator.calls.get method) = none ∧
          after = before.called (before.accelerator.calls.bump method) pool)
      (fun _ after =>
        before.accelerator.faults method (before.accelerator.calls.get method) ≠ none ∧
          after = before.called (before.accelerator.calls.bump method)
            before.accelerator.pool) := by
  unfold perform
  rw [ends_bind_iff]
  unfold Ends Store.attempt Accelerator.call
  cases scheduled : before.accelerator.faults method (before.accelerator.calls.get method) with
  | some reason => exact ⟨nofun, rfl⟩
  | none =>
    simp only [acted]
    trivial

omit [Arithmetic α] in
theorem downloads_called
    (pool : Pool α)
    (later : Nat) :
    (store.called (store.accelerator.calls.bump .download) pool).Downloads later ↔
      store.Downloads (1 + later) := by
  simp only [Downloads, called, CallCounts.get_bump, if_true, Nat.add_assoc]

theorem downloads_replace
    (contents : Contents α)
    (later : Nat) :
    (store.replace buffer contents).Downloads later ↔ store.Downloads later := by
  unfold replace
  split
  · exact Iff.rfl
  next found _ =>
    unfold Contents.discardOn
    cases found.contents <;> exact Iff.rfl

/-- Contents are moved to the host just if their download is not scheduled to fail. -/
theorem ends_moveToHost_scheduled
    {block : Block}
    (valid : before.Valid)
    (held : before.contents? buffer = some (.device block)) :
    Ends (moveToHost buffer) before
      (fun _ after => before.Downloads 0 ∧
        ∀ later, after.Downloads later ↔ before.Downloads (1 + later))
      (fun _ after => ¬ before.Downloads 0 ∧
        ∀ later, after.Downloads later ↔ before.Downloads (1 + later)) := by
  unfold moveToHost
  rw [ends_bind_iff]
  refine ends_find ?_ fun absent => ?_
  · intro found claimed stored
    rw [held] at stored
    have contents : Contents.device block = found.contents := Option.some.inj stored
    obtain ⟨-, -, values, live, size⟩ := valid.fits buffer _ _ claimed held
    obtain ⟨pool, downloaded⟩ := Pool.download_isOk live
    rw [size] at downloaded
    rw [← contents]
    dsimp only
    rw [ends_bind_iff]
    refine (ends_scheduled downloaded).mono ?_ ?_
    · rintro values _ ⟨scheduled, rfl⟩
      refine ⟨scheduled, fun later => ?_⟩
      rw [downloads_replace, downloads_called]
    · rintro reason _ ⟨scheduled, rfl⟩
      exact ⟨scheduled, downloads_called _⟩
  · obtain ⟨claim, claimed⟩ := exists_claim held
    rw [absent] at claimed
    cases claimed

/-! ## What evictions do -/

/--
What evictions leave behind that passed some buffers: those whose downloads
succeed are on the host with the same values, all others are where they were,
and no buffer counts as used.
-/
structure Passes (passed : List BufferId) (before after : Store α) : Prop where
  frame : Frame ∅ ∅ before after
  stamps : after.stamp? = before.stamp?
  downloads : ∀ later, after.Downloads later ↔ before.Downloads (passed.length + later)
  moved : ∀ (index : Nat) buffer, passed[index]? = some buffer → before.Downloads index →
    ∃ values, before.reading? buffer = some values ∧ after.contents? buffer = some (.host values)
  stays : ∀ buffer, (∀ index : Nat, passed[index]? = some buffer → ¬ before.Downloads index) →
    after.contents? buffer = before.contents? buffer

theorem Passes.refl (valid : store.Valid) : Passes [] store store where
  frame := .refl valid
  stamps := rfl
  downloads later := by rw [List.length_nil, Nat.zero_add]
  moved := by
    intro index _ found
    cases found
  stays _ _ := rfl

theorem Passes.cons
    {passed : List BufferId}
    (first : Passes [buffer] before middle)
    (rest : Passes passed middle after)
    (different : buffer ∉ passed) :
    Passes (buffer :: passed) before after where
  frame := first.frame.trans_empty rest.frame
  stamps := rest.stamps.trans first.stamps
  downloads later := by
    rw [rest.downloads, first.downloads, List.length_singleton, List.length_cons,
      ← Nat.add_assoc, Nat.add_comm 1]
  moved index other found succeeds := by
    cases index with
    | zero =>
      cases found
      obtain ⟨values, reads, final⟩ := first.moved 0 buffer rfl succeeds
      have later : after.contents? buffer = middle.contents? buffer :=
        rest.stays buffer fun index again => absurd (List.mem_of_getElem? again) different
      exact ⟨values, reads, later.trans final⟩
    | succ index =>
      have there : middle.Downloads index := by
        rwa [first.downloads, List.length_singleton, Nat.add_comm]
      obtain ⟨values, reads, final⟩ := rest.moved index other found there
      refine ⟨values, ?_, final⟩
      rw [← reads, first.frame.readings other (Set.notMem_empty _) (Set.notMem_empty _)]
  stays other fails := by
    have later : after.contents? other = middle.contents? other := by
      refine rest.stays other fun index found there => fails (index + 1) found ?_
      rwa [first.downloads, List.length_singleton, Nat.add_comm] at there
    refine later.trans (first.stays other fun index found => ?_)
    cases index with
    | zero => exact fails 0 found
    | succ index => cases found

theorem Passes.gains
    {passed : List BufferId}
    (passes : Passes passed before after)
    (later : Nat)
    (buffers : List BufferId) :
    after.gains later buffers = before.gains (passed.length + later) buffers := by
  induction buffers generalizing later with
  | nil => rfl
  | cons buffer buffers step =>
    rw [Store.gains, Store.gains, step, lengthOf_frame passes.frame (Set.notMem_empty _),
      Nat.add_assoc]
    simp only [passes.downloads]

/-- One eviction moves its buffer just if the download succeeds. -/
theorem ends_evict_scheduled
    {block : Block}
    (valid : before.Valid)
    (idle : before.Idle buffer)
    (held : before.contents? buffer = some (.device block)) :
    Ends (evict buffer) before
      (fun freed after => freed = before.gains 0 [buffer] ∧ Passes [buffer] before after)
      (fun _ _ => False) := by
  have gained : before.gains 0 [buffer] =
      if before.Downloads 0 then before.lengthOf buffer else 0 := rfl
  have untimed : Preserves (Timed before.stamp? before.clock) (moveToHost buffer : Action α Unit) :=
    (immobile_timed _ _).retreating.moveToHost
  rw [ends_evict_iff, ends_bind_iff]
  refine ends_find ?_ fun absent => ?_
  · intro found claimed _
    rw [ends_bind_iff]
    refine ((ends_moveToHost valid idle).and
      ((ends_moveToHost_scheduled valid held).and (untimed before ⟨rfl, rfl⟩))).mono ?_ ?_
    · rintro _ after ⟨⟨frame, -, others, values, final, reads⟩, ⟨succeeds, downloads⟩, stamps, -⟩
      rw [frame.readings buffer (Set.notMem_empty _) (Set.notMem_empty _)] at reads
      refine ⟨?_, frame, stamps, downloads, ?_, ?_⟩
      · rw [gained, if_pos succeeds, lengthOf, claimed]
        rfl
      · intro index other found _
        have same : other = buffer := List.mem_singleton.1 (List.mem_of_getElem? found)
        rw [same]
        exact ⟨values, reads, final⟩
      · exact fun other fails => others other fun same => fails 0 (congrArg some same) succeeds
    · rintro _ after ⟨⟨frame, contents⟩, ⟨fails, downloads⟩, stamps, -⟩
      refine ⟨?_, frame, stamps, downloads, ?_, ?_⟩
      · rw [gained, if_neg fails]
      · intro index other found succeeds
        cases index with
        | zero => exact absurd succeeds fails
        | succ index => cases found
      · exact fun other _ => congrFun contents other
  · obtain ⟨claim, claimed⟩ := exists_claim held
    rw [absent] at claimed
    cases claimed

/--
Where evictions of a queue stop: at its end, or where the buffers that were
moved reach the target, and not before.
-/
structure Stops
    (store : Store α)
    (target freed : Nat)
    (passed rest : List BufferId) : Prop where
  reached : rest = [] ∨ 0 < target ∧ target ≤ freed + store.gains 0 passed
  not_before : ∀ fewer more, passed = fewer ++ more → more ≠ [] →
    target = 0 ∨ freed + store.gains 0 fewer < target

theorem Stops.cons
    {target freed : Nat}
    {passed rest : List BufferId}
    (going : ¬ (0 < target ∧ target ≤ freed))
    (first : Passes [buffer] before middle)
    (stops : middle.Stops target (freed + before.gains 0 [buffer]) passed rest) :
    before.Stops target freed (buffer :: passed) rest := by
  have total : ∀ buffers, freed + before.gains 0 (buffer :: buffers) =
      freed + before.gains 0 [buffer] + middle.gains 0 buffers := by
    intro buffers
    rw [first.gains, Nat.add_assoc]
    rfl
  constructor
  · rw [total]
    exact stops.reached
  · intro fewer more split some
    cases fewer with
    | nil =>
      rw [gains]
      omega
    | cons head fewer =>
      obtain ⟨rfl, tails⟩ := List.cons.inj split
      rw [total]
      exact stops.not_before fewer more tails some

/-- Evictions go through the queue from its head and stop where the target is reached. -/
theorem ends_evictUntil_scheduled
    (valid : before.Valid)
    (target freed : Nat)
    {queue : List BufferId}
    (distinct : queue.Nodup)
    (idle : ∀ buffer ∈ queue, before.Idle buffer)
    (there : ∀ buffer ∈ queue, before.OnAccelerator buffer) :
    Ends (evictUntil target queue freed) before
      (fun total after => ∃ passed rest, queue = passed ++ rest ∧
        total = freed + before.gains 0 passed ∧ before.Stops target freed passed rest ∧
        Passes passed before after)
      (fun _ _ => False) := by
  induction queue generalizing before freed with
  | nil =>
    refine ⟨[], [], rfl, rfl, ⟨.inl rfl, fun fewer more split some => ?_⟩, .refl valid⟩
    exact absurd (List.append_eq_nil_iff.1 split.symm).2 some
  | cons buffer queue step =>
    obtain ⟨isNew, distinct⟩ := List.nodup_cons.1 distinct
    rw [evictUntil]
    split
    next enough =>
      refine ⟨[], buffer :: queue, rfl, rfl, ⟨.inr enough, fun fewer more split some => ?_⟩,
        .refl valid⟩
      exact absurd (List.append_eq_nil_iff.1 split.symm).2 some
    next going =>
      rw [ends_bind_iff]
      obtain ⟨block, held⟩ := there buffer List.mem_cons_self
      refine (ends_evict_scheduled valid (idle buffer List.mem_cons_self) held).mono ?_
        fun _ _ never => never.elim
      rintro _ middle ⟨rfl, first⟩
      refine (step first.frame.valid (freed + before.gains 0 [buffer]) distinct ?_ ?_).mono ?_
        fun _ _ never => never
      · exact fun other member => first.frame.idle (idle other (List.mem_cons_of_mem _ member))
      · intro other member
        obtain ⟨otherBlock, otherHeld⟩ := there other (List.mem_cons_of_mem _ member)
        refine ⟨otherBlock, (first.stays other fun index found => ?_).trans otherHeld⟩
        have same : other = buffer := List.mem_singleton.1 (List.mem_of_getElem? found)
        exact absurd (same ▸ member) isNew
      · rintro total after ⟨passed, rest, rfl, rfl, stops, passes⟩
        refine ⟨buffer :: passed, rest, rfl, ?_, stops.cons going first, ?_⟩
        · rw [first.gains, Nat.add_assoc]
          rfl
        · exact first.cons passes fun member => isNew (List.mem_append_left _ member)

/--
Evictions go through the buffers on the accelerator that nobody leases, the
least recently used first, and stop where those that were moved reach the
target.
-/
theorem ends_offload_scheduled
    (accounted : before.Accounted make others)
    (stamped : before.Stamped)
    (target : Nat)
    (device : Option DeviceId) :
    Ends (offload target device) before
      (fun freed after => ∃ passed rest, before.Queue device (passed ++ rest) ∧
        freed = before.gains 0 passed ∧ before.Stops target 0 passed rest ∧
        Passes passed before after)
      (fun _ _ => False) := by
  have isQueue := queue_evictable accounted stamped device
  unfold offload
  rw [ends_bind_iff, ends_get_iff]
  refine (ends_evictUntil_scheduled accounted.valid target 0 isQueue.nodup ?_ ?_).mono ?_
    fun _ _ never => never
  · intro buffer member claim claimed
    obtain ⟨found, block, present, unleased, -⟩ := (isQueue.candidates buffer).1 member
    rw [claim?, present] at claimed
    cases claimed
    exact unleased
  · intro buffer member
    obtain ⟨found, block, present, -, contents, -⟩ := (isQueue.candidates buffer).1 member
    exact ⟨block, by rw [contents?, present, Option.map_some, contents]⟩
  · rintro freed after ⟨passed, rest, split, total, stops, passes⟩
    rw [split] at isQueue
    exact ⟨passed, rest, isQueue, total.trans (Nat.zero_add _), stops, passes⟩

namespace Session

variable
    {capacity : Nat}
    {id : DeviceId}
    {unsupported : List OpCode}
    {faults : Method → Nat → Option DeviceError}
    {commands : List (Command α)}
    {session : Session α}

theorem stamped_of_run
    (reached : (start capacity id unsupported faults).run commands = session) :
    session.store.Stamped := by
  rw [← reached]
  exact stamped_run (stamped_create _) commands

/--
In every session that a run of requests leads to, no two buffers were last used
at the same time, and a request to make room goes through the buffers on the
accelerator that nobody leases from the least recently used on.  It stops where
those whose downloads succeed reach the target, answers with their elements,
and does the same in whatever order the registry lists the buffers.
-/
theorem offload_least_recent
    (reached : (start capacity id unsupported faults).run commands = session)
    (target : Nat)
    (device : Option DeviceId) :
    session.store.Stamped ∧
    ∃ passed rest store,
      session.step (.offload target device) =
        (.ok (.number (session.store.gains 0 passed)), { session with store := store }) ∧
      session.store.Queue device (passed ++ rest) ∧
      session.store.Stops target 0 passed rest ∧
      Passes passed session.store store ∧
      (∀ buffer contents, store.contents? buffer = some contents →
        store.location? buffer = some contents.tier) ∧
      ∀ listed : List BufferId, listed.Perm session.store.registry →
        step { session with store := session.store.relisted listed } (.offload target device) =
          (.ok (.number (session.store.gains 0 passed)),
            { session with store := store.relisted listed }) := by
  have sound := sound_of_run reached
  have stamped := stamped_of_run reached
  have stepped : ∀ asked : Session α, asked.step (.offload target device) =
      match Store.offload target device asked.store with
      | .ok freed store => (.ok (.number freed), { asked with store := store })
      | .error reason store => (.error reason, { asked with store := store }) := by
    intro asked
    have performed : perform (.offload target device) asked =
        (do return .number (← onStore (Store.offload target device)) : Action α (Answer α)) asked :=
      rfl
    rw [step, performed]
    simp only [bind, EStateM.bind, onStore]
    cases Store.offload target device asked.store <;> rfl
  have ends := (ends_offload_scheduled sound.accounted stamped target device).and
    (accounted_offload session.store sound.accounted)
  refine ⟨stamped, ?_⟩
  unfold Ends at ends
  split at ends
  next freed store outcome =>
    obtain ⟨⟨passed, rest, isQueue, rfl, stops, passes⟩, accounted⟩ := ends
    refine ⟨passed, rest, store, ?_, isQueue, stops, passes, accounted.located,
      fun listed perm => ?_⟩
    · rw [stepped, outcome]
    · rw [stepped, offload_relisted sound.accounted stamped perm target device, outcome]
  · exact ends.1.elim

/-- Two buffers on an accelerator whose first download fails. -/
def stubborn : Session Int :=
  (start 3 ⟨0⟩ [] fun method call => if method = .download ∧ call = 0 then some (.invalidBlock 0)
    else none).run
    [.allocateFrom #[1], .allocateFrom #[2, 3], .ensure 0 .accelerator, .ensure 1 .accelerator]

/-- The buffer used last makes room, since the one used before it cannot be downloaded. -/
theorem offload_least_recent_stubborn :
    ∃ store, stubborn.step (.offload 1 none) =
        (.ok (.number 2), { stubborn with store := store }) ∧
      store.contents? ⟨0⟩ = stubborn.store.contents? ⟨0⟩ ∧
      store.contents? ⟨1⟩ = some (.host #[2, 3]) := by
  have reached : (start 3 ⟨0⟩ [] fun method call =>
      if method = .download ∧ call = 0 then some (.invalidBlock 0) else none).run
      [.allocateFrom #[1], .allocateFrom #[2, 3], .ensure 0 .accelerator, .ensure 1 .accelerator] =
        stubborn := rfl
  have fails : ¬ stubborn.store.Downloads 0 := by decide +kernel
  have succeeds : stubborn.store.Downloads 1 := by decide +kernel
  have reads : stubborn.store.reading? ⟨1⟩ = some #[2, 3] := by decide +kernel
  have queued : stubborn.store.evictable none = [⟨0⟩, ⟨1⟩] := by cbv
  obtain ⟨stamped, passed, rest, store, stepped, isQueue, stops, passes, -⟩ :=
    offload_least_recent reached 1 none
  have split := isQueue.unique (queue_evictable (sound_of_run reached).accounted stamped none)
  rw [queued] at split
  have all : passed = [⟨0⟩, ⟨1⟩] := by
    rcases stops.reached with rfl | ⟨-, reached⟩
    · rwa [List.append_nil] at split
    · rcases passed with _ | ⟨first, _ | ⟨second, others⟩⟩
      · exact absurd reached (by decide)
      · have gained : stubborn.store.gains 0 [⟨0⟩] = 0 := by decide +kernel
        cases split
        rw [gained] at reached
        exact absurd reached (by decide)
      · simp only [List.cons_append, List.cons.injEq, List.append_eq_nil_iff] at split
        obtain ⟨rfl, rfl, rfl, -⟩ := split
        rfl
  subst all
  have gained : stubborn.store.gains 0 [⟨0⟩, ⟨1⟩] = 2 := by decide +kernel
  refine ⟨store, by rw [stepped, gained], passes.stays ⟨0⟩ ?_, ?_⟩
  · intro index found
    rcases index with _ | _ | index
    · exact fails
    · exact absurd found (by decide)
    · cases found
  · obtain ⟨values, before, after⟩ := passes.moved 1 ⟨1⟩ rfl succeeds
    rw [reads] at before
    cases before
    exact after

end Session

end Elementwise.Store
