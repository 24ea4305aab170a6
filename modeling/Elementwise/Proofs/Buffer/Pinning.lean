import Elementwise.Proofs.Buffer.Quota
import Elementwise.Proofs.Buffer.Session

/-!
# What a lease pins

From the request that grants a lease on a buffer until the last lease on it has
ended, the buffer stays on the tier of the lease with the contents that it had,
whatever is asked of the session in the meantime: buffers that make room are
chosen among those that nobody leases, and whatever needs the buffer for itself
is refused.  Nothing is refused on account of a lease that has ended.
-/

namespace Elementwise.Store

variable
    {α β γ : Type}
    [Arithmetic α]
    {store : Store α}
    {buffer : BufferId}

/-! ## Requests that are refused -/

omit [Arithmetic α] in
/-- What begins by claiming a leased buffer is refused. -/
theorem ends_claim_leased
    {next : Unit → Action α β}
    {held : Claim}
    (claimed : store.claim? buffer = some held)
    (leased : 0 < held.leases) :
    Ends (claim buffer >>= next) store (fun _ _ => False)
      fun reason _ => reason = .bufferBusy buffer := by
  unfold claim
  rw [ends_bind_iff, ends_bind_iff]
  refine ends_find ?_ fun absent => ?_
  · intro found same _
    rw [claimed] at same
    cases same
    have pinned : 0 < found.leases := leased
    rw [if_pos pinned]
    rfl
  · rw [claimed] at absent
    cases absent

/-- A further lease of a leased buffer is granted on its tier, and refused on the other. -/
theorem ends_lease_leased
    {found : Buffer α}
    (present : store.buffers.get? buffer = some found)
    (leased : 0 < found.leases)
    {tier : Tier}
    (stored : tier ≠ .empty) :
    Ends (lease buffer tier) store (fun _ _ => found.tier = tier)
      fun reason _ => found.tier ≠ tier ∧ reason = .bufferBusy buffer := by
  obtain ⟨stamped, touched, sameTier, sameLeases⟩ : ∃ stamped : Buffer α,
      (store.touch buffer).buffers.get? buffer = some stamped ∧
        stamped.tier = found.tier ∧ stamped.leases = found.leases := by
    refine ⟨{ found with stamp := store.clock + 1 }, ?_, rfl, rfl⟩
    rw [touch, Table.get?_modify, if_pos rfl, present, Option.map_some]
  rw [← sameLeases] at leased
  rw [← sameTier]
  unfold lease find
  rw [if_neg stored, ends_bind_iff, ends_modify_iff, ends_bind_iff, ends_bind_iff, ends_get_iff,
    touched, ends_pure_iff]
  by_cases there : stamped.tier = tier
  · simp only [there, ne_eq, not_true_eq_false, if_false]
    trivial
  · simp only [there, ne_eq, not_false_eq_true, if_true, leased]
    exact ⟨trivial, rfl⟩

/-! ## Requests that are not refused -/

/-- However an action fails, it is not because of a lease. -/
def Unrefused (action : Action α β) : Prop :=
  ∀ store, Ends action store (fun _ _ => True) fun reason _ => ∀ buffer, reason ≠ .bufferBusy buffer

namespace Unrefused

omit [Arithmetic α] in
theorem pure (answer : β) : Unrefused (Pure.pure answer : Action α β) :=
  fun _ => trivial

omit [Arithmetic α] in
theorem get : Unrefused (MonadState.get : Action α (Store α)) :=
  fun _ => trivial

omit [Arithmetic α] in
theorem modify (change : Store α → Store α) :
    Unrefused (MonadStateOf.modifyGet fun store => (PUnit.unit, change store) : Action α PUnit) :=
  fun _ => trivial

omit [Arithmetic α] in
theorem bind
    {first : Action α β}
    {next : β → Action α γ}
    (here : Unrefused first)
    (there : ∀ answer, Unrefused (next answer)) :
    Unrefused (first >>= next) := by
  intro store
  rw [ends_bind_iff]
  exact (here store).mono (fun answer middle _ => there answer middle) fun _ _ other => other

omit [Arithmetic α] in
theorem find : Unrefused (Store.find buffer : Action α (Buffer α)) := by
  refine .bind .get fun store => ?_
  split
  · exact .pure _
  · intro _ _
    rintro ⟨⟩

omit [Arithmetic α] in
theorem attempt (call : Accelerator.Action α β) : Unrefused (Store.attempt call) := by
  intro store
  unfold Ends Store.attempt
  cases call store.accelerator with
  | ok => trivial
  | error => trivial

omit [Arithmetic α] in
theorem ofDevice (error : DeviceError) :
    Unrefused (throw (Error.ofDevice error) : Action α β) := by
  intro _ _
  cases error <;> rintro ⟨⟩

omit [Arithmetic α] in
theorem perform (call : Accelerator.Action α β) : Unrefused (Store.perform call) := by
  refine .bind (.attempt call) fun outcome => ?_
  split
  · exact .pure _
  · exact .ofDevice _

omit [Arithmetic α] in
theorem unlessDone
    {action : Action α β}
    {change : Store α → Store α}
    (unrefused : Unrefused action) :
    Unrefused (action.unlessDone change) := by
  intro store
  rw [ends_unlessDone_iff]
  exact unrefused store

theorem moveToHost : Unrefused (Store.moveToHost buffer : Action α Unit) := by
  refine .bind .find fun found => ?_
  split
  · exact .pure _
  · exact .modify _
  · exact .bind (.perform _) fun _ => .modify _

theorem offload
    (target : Nat)
    (device : Option DeviceId) :
    Unrefused (Store.offload target device : Action α Nat) := by
  have evicts : ∀ (buffers : List BufferId) (freed : Nat),
      Unrefused (evictUntil target buffers freed : Action α Nat) := by
    intro buffers
    induction buffers with
    | nil => exact fun freed => .pure freed
    | cons buffer buffers step =>
      intro freed
      rw [evictUntil]
      split
      · exact .pure freed
      · refine .bind (fun store => ends_evict_iff.2 ?_) fun gained => step (freed + gained)
        have moved : Unrefused
            (do let found ← Store.find buffer; Store.moveToHost buffer; Pure.pure found.length :
              Action α Nat) :=
          .bind .find fun _ => .bind .moveToHost fun _ => .pure _
        exact (moved store).mono (fun _ _ _ => trivial) fun _ _ _ => trivial
  exact .bind .get fun _ => evicts _ 0

theorem allocateBlock (length : Nat) : Unrefused (Store.allocateBlock length : Action α Block) := by
  refine .bind (.attempt _) fun outcome => ?_
  split
  · exact .pure _
  · refine .bind .get fun store => .bind (.offload length _) fun freed =>
      .bind (.attempt _) fun again => ?_
    split
    · exact .pure _
    · intro _ _
      rintro ⟨⟩
    · exact .ofDevice _
  · exact .ofDevice _

theorem move (tier : Tier) : Unrefused (Store.move buffer tier : Action α Unit) := by
  cases tier with
  | empty => exact .modify _
  | host => exact .moveToHost
  | accelerator =>
    refine .bind .find fun found => ?_
    split
    · exact .pure _
    · exact .bind (.allocateBlock _) fun _ => .modify _
    · exact .bind (.allocateBlock _) fun _ => .bind (.unlessDone (.perform _)) fun _ => .modify _

omit [Arithmetic α] in
theorem hostValues : Unrefused (Store.hostValues buffer : Action α (Array α)) := by
  refine .bind .find fun found => ?_
  split
  · exact .pure _
  · exact .pure _

end Unrefused

section

variable
    {held : Claim}
    (claimed : store.claim? buffer = some held)
    (idle : held.leases = 0)

include claimed idle

omit [Arithmetic α] in
/-- What needs a buffer for itself is not refused if nobody leases the buffer. -/
theorem ends_claim_idle
    {next : Action α β}
    (unrefused : Unrefused next) :
    Ends (do claim buffer; next) store (fun _ _ => True)
      fun reason _ => ∀ other, reason ≠ .bufferBusy other := by
  have unleased : ∀ {found : Buffer α}, store.claim? buffer = some found.claim →
      ¬ 0 < found.leases := by
    intro found same
    rw [claimed] at same
    cases same
    exact Nat.not_lt_of_le (Nat.le_of_eq idle)
  rw [ends_bind_iff]
  unfold claim
  rw [ends_bind_iff]
  refine ends_find ?_ fun _ other => by rintro ⟨⟩
  intro found same _
  show Ends (ite (0 < found.leases) _ _) _ _ _
  rw [if_neg (unleased same)]
  exact unrefused _

/-- A lease is not refused if nobody leases the buffer. -/
theorem ends_lease_idle
    (tier : Tier) :
    Ends (lease buffer tier) store (fun _ _ => True)
      fun reason _ => ∀ other, reason ≠ .bufferBusy other := by
  unfold lease
  split
  · intro other
    rintro ⟨⟩
  rw [ends_bind_iff, ends_modify_iff, ends_bind_iff]
  refine ends_find ?_ fun _ other => by rintro ⟨⟩
  intro found same _
  have unleased : ¬ 0 < found.leases := by
    rw [(alike_touch store buffer).claim?, claimed] at same
    cases same
    exact Nat.not_lt_of_le (Nat.le_of_eq idle)
  by_cases there : found.tier = tier
  · simp only [there, ne_eq, not_true_eq_false, if_false]
    trivial
  · simp only [there, ne_eq, not_false_eq_true, if_true, unleased, if_false]
    exact Unrefused.bind (.move tier) (fun _ => .modify _) _

end

namespace Session

variable
    {make : Make}
    {session : Session α}
    {name : Nat}

/-- The name of the buffer that a request needs for itself. -/
def Command.exclusive? : Command α → Option Nat
  | .ensure name _ | .release name | .write name _ | .fill name _ | .clear name
  | .update name _ => some name
  | _ => none

/-! ## Leases and the claims on their buffers -/

omit [Arithmetic α] in
theorem Sound.exists_leases
    (sound : session.Sound make)
    (leased : some buffer ∈ session.leases) :
    ∃ found, session.store.buffers.get? buffer = some found ∧ 0 < found.leases := by
  obtain ⟨claim, claimed⟩ := (sound.live_iff buffer).2 (.inr leased)
  rcases sound.claims buffer with ⟨gone, -⟩ | ⟨length, held⟩
  · rw [gone] at claimed
    cases claimed
  · obtain ⟨found, present, same⟩ := Option.map_eq_some_iff.1 held
    refine ⟨found, present, ?_⟩
    have counted : found.leases = standing session.leases buffer := congrArg Claim.leases same
    rw [counted]
    exact standing_pos_iff.2 leased

omit [Arithmetic α] in
theorem Sound.leases_eq_zero
    (sound : session.Sound make)
    (unleased : some buffer ∉ session.leases)
    {claim : Claim}
    (claimed : session.store.claim? buffer = some claim) :
    claim.leases = 0 := by
  rcases sound.claims buffer with ⟨gone, -⟩ | ⟨length, held⟩
  · rw [gone] at claimed
    cases claimed
  · rw [held] at claimed
    cases claimed
    exact Nat.eq_zero_of_not_pos fun leased => unleased (standing_pos_iff.1 leased)

/-! ## What a lease refuses -/

section

variable
    {action : BufferId → Store.Action α β}
    {result : β → Answer α}
    {done : Answer α → Session α → Prop}
    {failed : Error → Session α → Prop}

omit [Arithmetic α] in
/-- A request to a buffer that the user has a name for. -/
theorem ends_named_onStore
    (stands : session.buffers[name]? = some (some buffer))
    (ends : Ends (action buffer) session.store
      (fun answer store => done (result answer) { session with store := store })
      fun reason store => failed reason { session with store := store }) :
    Ends
      (do
        let buffer ← named name
        let answer ← onStore (action buffer)
        return result answer) session done failed := by
  unfold named
  rw [ends_bind_iff, ends_bind_iff, ends_get_iff, stands, ends_pure_iff, ends_bind_iff,
    ends_onStore_iff]
  exact ends

end

/-- What needs a leased buffer for itself is refused, and writing what does not fit as well. -/
theorem ends_exclusive_leased
    {command : Command α}
    {held : Claim}
    (stands : session.buffers[name]? = some (some buffer))
    (claimed : session.store.claim? buffer = some held)
    (leased : 0 < held.leases)
    (exclusive : command.exclusive? = some name) :
    Ends (perform command) session (fun _ _ => False) fun reason _ =>
      (∀ values, command = .write name values → values.size = held.length) →
        reason = .bufferBusy buffer := by
  have refused : ∀ {β : Type} {result : β → Answer α} {next : BufferId → Unit → Store.Action α β},
      Ends
        (do
          let buffer ← named name
          let answer ← onStore (claim buffer >>= next buffer)
          return result answer) session (fun _ _ => False) fun reason _ =>
        (∀ values, command = .write name values → values.size = held.length) →
          reason = .bufferBusy buffer :=
    ends_named_onStore stands
      ((ends_claim_leased claimed leased).mono (fun _ _ never => never) fun _ _ busy _ => busy)
  cases command with
  | ensure other tier =>
    cases exclusive
    exact refused
  | release other =>
    cases exclusive
    exact refused
  | fill other value =>
    cases exclusive
    exact refused
  | clear other =>
    cases exclusive
    exact refused
  | update other change =>
    cases exclusive
    exact refused
  | write other values =>
    cases exclusive
    refine ends_named_onStore stands ?_
    unfold Store.write
    rw [ends_bind_iff]
    refine ends_find ?_ fun absent => ?_
    · intro found same _
      rw [claimed] at same
      cases same
      dsimp only
      split
      next misfit => exact fun fits => absurd (fits values rfl) misfit
      · exact (ends_claim_leased claimed leased).mono (fun _ _ never => never)
          fun _ _ busy _ => busy
    · rw [claimed] at absent
      cases absent
  | _ => cases exclusive

/-- What needs a buffer for itself is not refused if nobody leases the buffer. -/
theorem ends_exclusive_idle
    {command : Command α}
    {held : Claim}
    (stands : session.buffers[name]? = some (some buffer))
    (claimed : session.store.claim? buffer = some held)
    (idle : held.leases = 0)
    (exclusive : command.exclusive? = some name) :
    Ends (perform command) session (fun _ _ => True) fun reason _ =>
      ∀ other, reason ≠ .bufferBusy other := by
  have ensures : ∀ tier, Ends (Store.ensure buffer tier : Store.Action α Unit) session.store
      (fun _ _ => True) fun reason _ => ∀ other, reason ≠ .bufferBusy other :=
    fun tier => ends_claim_idle claimed idle (.move tier)
  have fills : ∀ value : α, Ends (Store.fill buffer value) session.store
      (fun _ _ => True) fun reason _ => ∀ other, reason ≠ .bufferBusy other := by
    refine fun value => ends_claim_idle claimed idle (.bind .find fun found => ?_)
    split
    · exact .perform _
    · exact .modify _
    · exact .modify _
  cases command with
  | ensure other tier =>
    cases exclusive
    exact ends_named_onStore stands (ensures tier)
  | release other =>
    cases exclusive
    exact ends_named_onStore stands (ensures .empty)
  | fill other value =>
    cases exclusive
    exact ends_named_onStore stands (fills value)
  | clear other =>
    cases exclusive
    exact ends_named_onStore stands (fills Arithmetic.zero)
  | update other change =>
    cases exclusive
    exact ends_named_onStore stands (ends_claim_idle claimed idle
      (.bind .moveToHost fun _ => .bind .hostValues fun _ => .bind (.modify _) fun _ => .pure _))
  | write other values =>
    cases exclusive
    refine ends_named_onStore stands ?_
    unfold Store.write
    rw [ends_bind_iff]
    refine ends_find ?_ fun _ other => by rintro ⟨⟩
    intro found _ _
    dsimp only
    split
    · intro other
      rintro ⟨⟩
    · exact ends_claim_idle claimed idle (.modify _)
  | _ => cases exclusive

/-! ## What a lease keeps in place -/

/-- A buffer that is live after a step has the contents that it had before. -/
def Stays (buffer : BufferId) (session after : Session α) : Prop :=
  ∀ claim, after.store.claim? buffer = some claim →
    after.store.contents? buffer = session.store.contents? buffer

section

variable
    (sound : session.Sound make)
    (leased : some buffer ∈ session.leases)

include sound leased

/-- A step of the store that neither makes nor ends a leased buffer. -/
theorem Stays.of_frame
    {made written : Set BufferId}
    {store : Store α}
    (frame : Frame made written session.store store)
    (old : buffer ∉ made) :
    store.contents? buffer = session.store.contents? buffer := by
  obtain ⟨found, present, counted⟩ := sound.exists_leases leased
  have claimed : session.store.claim? buffer = some found.claim := by
    rw [claim?, present, Option.map_some]
  exact frame.pinned buffer found.claim old claimed counted

/-- A step of the store that makes a buffer. -/
theorem Stays.of_fresh
    {store : Store α}
    {other : BufferId}
    (frame : Frame {other} ∅ session.store store)
    (absent : session.store.claim? other = none) :
    store.contents? buffer = session.store.contents? buffer := by
  refine Stays.of_frame sound leased frame fun same => ?_
  rw [Set.mem_singleton_iff] at same
  subst same
  obtain ⟨found, present, -⟩ := sound.exists_leases leased
  rw [claim?, present] at absent
  cases absent

/-- A request to a named buffer that makes and ends none. -/
theorem ends_named_stays
    {action : BufferId → Store.Action α β}
    {result : β → Answer α}
    (frames : ∀ other, Frames (action other) session.store) :
    Ends
      (do
        let buffer ← named name
        let answer ← onStore (action buffer)
        return result answer) session
      (fun _ after => Stays buffer session after) (fun _ after => Stays buffer session after) := by
  rw [ends_bind_iff]
  refine ends_named (fun other _ => ?_) fun _ _ => rfl
  rw [ends_bind_iff, ends_onStore_iff]
  refine (frames other).mono ?_ ?_
  · rintro _ store ⟨written, frame⟩ _ _
    exact Stays.of_frame sound leased frame (Set.notMem_empty _)
  · rintro _ store ⟨written, frame⟩ _ _
    exact Stays.of_frame sound leased frame (Set.notMem_empty _)

theorem ends_lease_stays
    (tier : Tier) :
    Ends (leaseNext name tier) session
      (fun _ after => Stays buffer session after) (fun _ after => Stays buffer session after) := by
  unfold leaseNext
  rw [ends_bind_iff, reserveLease, ends_modifyGet_iff, ends_bind_iff]
  refine ends_named (fun other _ => ?_) fun _ _ => rfl
  rw [ends_bind_iff, ends_onStore_iff]
  refine (ends_lease sound.accounted.valid).mono ?_ ?_
  · rintro _ _ ⟨middle, frame, -, rfl⟩
    rw [ends_bind_iff, ends_modify_iff]
    intro _ _
    have held : ((middle.pin other).hold other).contents? = middle.contents? :=
      (contents?_revised revises_hold).trans contents?_pin
    exact (congrFun held buffer).trans (Stays.of_frame sound leased frame (Set.notMem_empty _))
  · rintro _ store frame _ _
    exact Stays.of_frame sound leased frame (Set.notMem_empty _)

/-- No request changes the contents of a leased buffer that is live afterwards. -/
theorem ends_perform_stays (command : Command α) :
    Ends (perform command) session
      (fun _ after => Stays buffer session after) (fun _ after => Stays buffer session after) := by
  have valid := sound.accounted.valid
  cases command with
  | allocate length =>
    show Ends (onStore (Store.allocate length) >>= Session.name) session _ _
    rw [ends_bind_iff, ends_onStore_iff]
    refine (ends_allocate valid length).mono ?_ fun _ _ failed => failed
    rintro _ store ⟨absent, frame, -⟩ _ _
    exact Stays.of_fresh sound leased frame absent
  | allocateFrom values =>
    show Ends (onStore (Store.allocateFrom values) >>= Session.name) session _ _
    rw [ends_bind_iff, ends_onStore_iff]
    refine (ends_allocateFrom valid values).mono ?_ fun _ _ failed => failed
    rintro _ store ⟨absent, frame, -⟩ _ _
    exact Stays.of_fresh sound leased frame absent
  | churn count length =>
    exact fun _ _ => Stays.of_frame sound leased (accounted_churned sound.accounted length count).2
      (Set.notMem_empty _)
  | share index =>
    show Ends (named index >>= _) session _ _
    rw [ends_bind_iff]
    refine ends_named (fun other _ => ?_) fun _ _ => rfl
    exact fun _ _ => congrFun (contents?_revised revises_hold) buffer
  | drop index =>
    show Ends (named index >>= _) session _ _
    rw [ends_bind_iff]
    refine ends_named (fun other _ => ?_) fun _ _ => rfl
    exact fun _ live => contents?_reclaim_of_live revises_drop live
  | ensure index tier =>
    exact ends_named_stays sound leased fun _ => frames_ensure valid tier
  | release index =>
    exact ends_named_stays sound leased fun _ => frames_release valid
  | offload target device =>
    show Ends (onStore (Store.offload target device) >>= _) session _ _
    rw [ends_bind_iff, ends_onStore_iff]
    refine (ends_offload valid target device).mono ?_ fun _ _ never => never.elim
    rintro _ store ⟨frame, -⟩ _ _
    exact Stays.of_frame sound leased frame (Set.notMem_empty _)
  | read index =>
    exact ends_named_stays sound leased fun _ => frames_read valid
  | write index values =>
    exact ends_named_stays sound leased fun _ => frames_write valid values
  | fill index value =>
    exact ends_named_stays sound leased fun _ => frames_fill valid value
  | clear index =>
    exact ends_named_stays sound leased fun _ => frames_fill valid Arithmetic.zero
  | update index change =>
    exact ends_named_stays sound leased fun _ => frames_update valid change
  | lease index tier =>
    show Ends (leaseNext index tier >>= _) session _ _
    rw [ends_bind_iff]
    exact ends_lease_stays sound leased tier
  | unlease lease =>
    show Ends (do modify (endLease lease); return _) session _ _
    rw [ends_bind_iff, ends_modify_iff]
    intro claim live
    unfold endLease at live ⊢
    split at live
    · obtain ⟨before, middle, -⟩ := exists_claim_of_reclaim revises_drop live
      exact (contents?_reclaim_of_live revises_drop live).trans
        (contents?_reclaim_of_live revises_unpin middle)
    · rfl
  | reserve length =>
    show Ends (get >>= _) session _ _
    rw [ends_bind_iff, ends_get_iff]
    split
    · exact fun _ _ => rfl
    · exact fun _ _ => rfl
  | unreserve index =>
    show Ends (get >>= _) session _ _
    rw [ends_bind_iff, ends_get_iff]
    split
    · exact fun _ _ => rfl
    · exact fun _ _ => rfl

/-- The contents of a leased buffer that is live after a step are those before it. -/
theorem step_stays (command : Command α) : Stays buffer session (session.step command).2 :=
  step_of_ends (ends_perform_stays sound leased command)

end

/-- What an answered request changes is the buffer that it needs for itself. -/
theorem change_effect
    (session : Session α)
    (command : Command α)
    (old : Array α) :
    (session.effect command).change buffer old = old ∨
      ∃ name, command.exclusive? = some name ∧ session.buffers[name]? = some (some buffer) := by
  have writes : ∀ (name : Nat) (change : Array α → Array α), command.exclusive? = some name →
      (session.writing name change).change buffer old = old ∨
        ∃ name, command.exclusive? = some name ∧ session.buffers[name]? = some (some buffer) := by
    intro name change exclusive
    by_cases stands : session.buffers[name]? = some (some buffer)
    · exact .inr ⟨name, exclusive, stands⟩
    · exact .inl (if_neg stands)
  cases command with
  | ensure name tier =>
    cases tier with
    | empty => exact writes name _ rfl
    | host => exact .inl rfl
    | accelerator => exact .inl rfl
  | release name => exact writes name _ rfl
  | write name values => exact writes name _ rfl
  | fill name value => exact writes name _ rfl
  | clear name => exact writes name _ rfl
  | update name change => exact writes name _ rfl
  | _ => exact .inl rfl

/-- Where a buffer is, where it says it is, and what it reads as. -/
def Undisturbed (buffer : BufferId) (session after : Session α) : Prop :=
  after.store.contents? buffer = session.store.contents? buffer ∧
    after.store.location? buffer = session.store.location? buffer ∧
    after.store.reading? buffer = session.store.reading? buffer

section

variable
    (sound : session.Sound make)
    (leased : some buffer ∈ session.leases)

include sound leased

/-- A step leaves a leased buffer alone if it does not end the last lease. -/
theorem step_undisturbed
    (command : Command α)
    (still : some buffer ∈ (session.step command).2.leases) :
    Undisturbed buffer session (session.step command).2 := by
  have stepped : session.step command = ((session.step command).1, (session.step command).2) := rfl
  obtain ⟨step, -⟩ := sound.step stepped
  obtain ⟨found, present, counted⟩ := sound.exists_leases leased
  have claimed : session.store.claim? buffer = some found.claim := by
    rw [claim?, present, Option.map_some]
  have held : session.store.contents? buffer = some found.contents := by
    rw [contents?, present, Option.map_some]
  obtain ⟨claim, live⟩ := (step.sound.live_iff buffer).2 (.inr still)
  have contents := step_stays sound leased command claim live
  refine ⟨contents, ?_, ?_⟩
  · rw [step.sound.accounted.located buffer found.contents (contents.trans held),
      sound.accounted.located buffer found.contents held]
  · obtain ⟨old, reads⟩ := sound.exists_reading (.inr leased)
    rw [step.readings buffer old (.inr leased) (.inr still) reads, reads]
    refine congrArg some ?_
    -- a request that would change the buffer is refused, and then has no effect
    cases outcome : (session.step command).1 with
    | error reason => rfl
    | ok answer =>
      rcases change_effect session command old with same | ⟨name, exclusive, stands⟩
      · exact same
      · exact (step_of_ok (ends_exclusive_leased stands claimed counted exclusive) outcome).elim

/-- A run leaves a leased buffer alone while a lease on it stands. -/
theorem run_undisturbed
    (commands : List (Command α))
    (still : ∀ part, part <+: commands → some buffer ∈ (session.run part).leases) :
    Undisturbed buffer session (session.run commands) := by
  induction commands generalizing session with
  | nil => exact ⟨rfl, rfl, rfl⟩
  | cons command commands rest =>
    have next : some buffer ∈ (session.step command).2.leases :=
      still [command] (List.prefix_iff_eq_take.2 rfl)
    have first := step_undisturbed sound leased command next
    have later := rest (sound.step rfl).1.sound next fun part before =>
      still (command :: part) (List.cons_prefix_cons.2 ⟨rfl, before⟩)
    exact ⟨later.1.trans first.1, later.2.1.trans first.2.1, later.2.2.trans first.2.2⟩

end

/-! ## What is asked of a buffer while it is leased and afterwards -/

section

variable {found : Buffer α}

omit [Arithmetic α] in
theorem buffer?_eq_some_iff :
    session.buffer? name = some (buffer, found) ↔
      session.buffers[name]? = some (some buffer) ∧
        session.store.buffers.get? buffer = some found := by
  simp only [buffer?, Option.bind_eq_bind, Option.pure_def, Option.bind_eq_some_iff,
    Option.some.injEq, Prod.mk.injEq]
  constructor
  · rintro ⟨_, stands, other, rfl, _, present, rfl, rfl⟩
    exact ⟨stands, present⟩
  · rintro ⟨stands, present⟩
    exact ⟨_, stands, buffer, rfl, found, present, rfl, rfl⟩

/-- A lease that is granted has put the buffer on its tier. -/
theorem ends_perform_lease
    (sound : session.Sound make)
    (stands : session.buffers[name]? = some (some buffer))
    (tier : Tier) :
    Ends (perform (.lease name tier)) session
      (fun answer after => answer = .named session.leases.size ∧ tier ≠ .empty ∧
        after.leases[session.leases.size]? = some (some buffer) ∧
          after.store.OnTier buffer tier)
      (fun _ _ => True) := by
  have reserved : (session.leases.push none)[session.leases.size]? = some none :=
    Array.getElem?_push_size
  have stored : Ends (Store.lease buffer tier) session.store (fun _ _ => tier ≠ .empty)
      fun _ _ => True := by
    unfold Store.lease
    split
    · trivial
    next stored =>
      have refl : ∀ {β : Type} (action : Store.Action α β) store,
          Ends action store (fun _ _ => tier ≠ .empty) fun _ _ => True := by
        intro β action store
        unfold Ends
        split
        · exact stored
        · trivial
      exact refl _ _
  show Ends (leaseNext name tier >>= _) session _ _
  unfold leaseNext named
  rw [ends_bind_iff, ends_bind_iff, reserveLease, ends_modifyGet_iff, ends_bind_iff, ends_bind_iff,
    ends_get_iff]
  simp only [stands]
  rw [ends_pure_iff, ends_bind_iff, ends_onStore_iff]
  refine ((ends_lease sound.accounted.valid).and stored).mono ?_ fun _ _ _ => trivial
  rintro _ _ ⟨⟨middle, -, ⟨contents, held, tiered⟩, rfl⟩, stored⟩
  rw [ends_bind_iff, ends_modify_iff, ends_pure_iff]
  refine ⟨rfl, stored, ?_, contents, ?_, tiered⟩
  · obtain ⟨inside, -⟩ := Array.getElem?_eq_some_iff.1 reserved
    exact Array.getElem?_setIfInBounds_self_of_lt inside
  · show ((middle.pin buffer).revised buffer _).contents? buffer = _
    rw [contents?_revised revises_hold, contents?_pin]
    exact held

/-- A further lease of a leased buffer. -/
theorem ends_perform_lease_leased
    (stands : session.buffers[name]? = some (some buffer))
    (present : session.store.buffers.get? buffer = some found)
    (leased : 0 < found.leases)
    {tier : Tier}
    (stored : tier ≠ .empty) :
    Ends (perform (.lease name tier)) session
      (fun answer _ => answer = .named session.leases.size ∧ found.tier = tier)
      fun reason _ => found.tier ≠ tier ∧ reason = .bufferBusy buffer := by
  show Ends (leaseNext name tier >>= _) session _ _
  unfold leaseNext named
  rw [ends_bind_iff, ends_bind_iff, reserveLease, ends_modifyGet_iff, ends_bind_iff, ends_bind_iff,
    ends_get_iff]
  simp only [stands]
  rw [ends_pure_iff, ends_bind_iff, ends_onStore_iff]
  refine (ends_lease_leased present leased stored).mono (fun _ _ there => ?_) fun _ _ busy => busy
  rw [ends_bind_iff, ends_modify_iff, ends_pure_iff]
  exact ⟨rfl, there⟩

/-- A lease of a buffer that nobody leases is not refused on account of a lease. -/
theorem ends_perform_lease_idle
    (stands : session.buffers[name]? = some (some buffer))
    {held : Claim}
    (claimed : session.store.claim? buffer = some held)
    (idle : held.leases = 0)
    (tier : Tier) :
    Ends (perform (.lease name tier)) session (fun _ _ => True) fun reason _ =>
      ∀ other, reason ≠ .bufferBusy other := by
  show Ends (leaseNext name tier >>= _) session _ _
  unfold leaseNext named
  rw [ends_bind_iff, ends_bind_iff, reserveLease, ends_modifyGet_iff, ends_bind_iff, ends_bind_iff,
    ends_get_iff]
  simp only [stands]
  rw [ends_pure_iff, ends_bind_iff, ends_onStore_iff]
  exact (ends_lease_idle claimed idle tier).mono (fun _ _ _ => trivial) fun _ _ other => other

end

section

variable
    {capacity : Nat}
    {device : DeviceId}
    {unsupported : List OpCode}
    {faults : Method → Nat → Option DeviceError}
    {commands : List (Command α)}

/--
In every session that a run of requests leads to:

- A lease that is granted has put its buffer on the tier that was asked for.
- As long as a lease on a buffer stands, no further requests change where the buffer is or
  what it holds.
- As long as a lease on it stands, a buffer is busy for everything that needs it for itself
  and for leases on the other tier, and further leases on its tier are granted.
- As soon as no lease on it stands, nothing is refused because some buffer is busy.
-/
theorem lease_pins
    (reached : (start capacity device unsupported faults).run commands = session) :
    (∀ name buffer found tier answer, session.buffer? name = some (buffer, found) →
      (session.step (.lease name tier)).1 = .ok answer →
        tier ≠ .empty ∧ some buffer ∈ (session.step (.lease name tier)).2.leases ∧
          (session.step (.lease name tier)).2.store.location? buffer = some tier) ∧
    (∀ buffer later, some buffer ∈ session.leases →
      (∀ part, part <+: later → some buffer ∈ (session.run part).leases) →
        (session.run later).store.contents? buffer = session.store.contents? buffer ∧
          (session.run later).store.location? buffer = session.store.location? buffer ∧
          (session.run later).store.reading? buffer = session.store.reading? buffer) ∧
    ∀ name buffer found, session.buffer? name = some (buffer, found) →
      (some buffer ∈ session.leases →
        (∀ command, command.exclusive? = some name →
          (∀ values, command = .write name values → values.size = found.length) →
            (session.step command).1 = .error (.bufferBusy buffer)) ∧
        ∀ tier, tier ≠ .empty →
          (session.step (.lease name tier)).1 =
            if found.location = tier then .ok (.named session.leases.size)
            else .error (.bufferBusy buffer)) ∧
      (some buffer ∉ session.leases →
        ∀ command, command.exclusive? = some name ∨ (∃ tier, command = .lease name tier) →
          ∀ other, (session.step command).1 ≠ .error (.bufferBusy other)) := by
  have sound := sound_of_run reached
  refine ⟨?_, fun buffer later leased still => run_undisturbed sound leased later still, ?_⟩
  · intro name buffer found tier answer stands granted
    obtain ⟨stands, -⟩ := buffer?_eq_some_iff.1 stands
    obtain ⟨-, stored, leased, contents, held, tiered⟩ :=
      step_of_ok (ends_perform_lease sound stands tier) granted
    have after : (session.step (.lease name tier)).2.Sound _ := (sound.step rfl).1.sound
    refine ⟨stored, mem_of_stands leased, ?_⟩
    rw [after.accounted.located buffer contents held, tiered]
  intro name buffer found stands
  obtain ⟨stands, present⟩ := buffer?_eq_some_iff.1 stands
  have claimed : session.store.claim? buffer = some found.claim := by
    rw [claim?, present, Option.map_some]
  refine ⟨fun leased => ⟨?_, ?_⟩, ?_⟩
  · obtain ⟨same, again, counted⟩ := sound.exists_leases leased
    rw [present] at again
    cases again
    intro command exclusive fits
    obtain ⟨reason, refused, busy⟩ :=
      step_eq_error (ends_exclusive_leased stands claimed counted exclusive)
    rw [refused, busy fits]
  · obtain ⟨same, again, counted⟩ := sound.exists_leases leased
    rw [present] at again
    cases again
    intro tier stored
    have ends := ends_perform_lease_leased stands present counted stored
    rw [sound.accounted.location_eq_tier present]
    cases outcome : (session.step (.lease name tier)).1 with
    | ok answer =>
      obtain ⟨rfl, there⟩ := step_of_ok ends outcome
      rw [if_pos there]
    | error reason =>
      obtain ⟨elsewhere, rfl⟩ := step_of_error ends outcome
      rw [if_neg elsewhere]
  · intro unleased command exclusive other busy
    have idle := sound.leases_eq_zero unleased claimed
    rcases exclusive with exclusive | ⟨tier, rfl⟩
    · exact step_of_error (ends_exclusive_idle stands claimed idle exclusive) busy other rfl
    · exact step_of_error (ends_perform_lease_idle stands claimed idle tier) busy other rfl

/-- A buffer is leased on an accelerator that has no room for the other one. -/
def pinned : Session Int :=
  onIntegers [.allocateFrom #[1, 2], .allocateFrom #[3, 4], .lease 0 .accelerator]

/-- Requests that offload everything, drop the leased buffer and ask for room for the other. -/
def displacing : List (Command Int) :=
  [.offload 0 none, .ensure 1 .accelerator, .drop 0, .offload 0 none]

/-- The leased buffer stays on the accelerator, and is busy for everything else. -/
theorem lease_pins_displacing :
    (pinned.run displacing).store.location? ⟨0⟩ = some .accelerator ∧
      (pinned.run displacing).store.reading? ⟨0⟩ = some #[1, 2] ∧
      (pinned.step (.write 0 #[5, 6])).1 = .error (.bufferBusy ⟨0⟩) ∧
      (pinned.step (.lease 0 .accelerator)).1 = .ok (.named 1) := by
  have leased : some ⟨0⟩ ∈ pinned.leases := by decide +kernel
  have still : ∀ part ∈ displacing.inits, some ⟨0⟩ ∈ (pinned.run part).leases := by
    decide +kernel
  have location : pinned.store.location? ⟨0⟩ = some .accelerator := by decide +kernel
  have reading : pinned.store.reading? ⟨0⟩ = some #[1, 2] := by decide +kernel
  obtain ⟨found, stands, located, length⟩ : ∃ found, pinned.buffer? 0 = some (⟨0⟩, found) ∧
      found.location = .accelerator ∧ found.length = 2 :=
    ⟨_, rfl, by decide +kernel, by decide +kernel⟩
  obtain ⟨-, pins, named⟩ := lease_pins (rfl : _ = pinned)
  obtain ⟨-, sameLocation, sameReading⟩ :=
    pins ⟨0⟩ displacing leased fun part before => still part ((List.mem_inits ..).2 before)
  obtain ⟨busy, again⟩ := (named 0 ⟨0⟩ found stands).1 leased
  refine ⟨sameLocation.trans location, sameReading.trans reading, ?_, ?_⟩
  · refine busy (.write 0 #[5, 6]) rfl fun values same => ?_
    cases same
    rw [length]
    rfl
  · have one : pinned.leases.size = 1 := by decide +kernel
    rw [again .accelerator (by rintro ⟨⟩), if_pos located, one]

end

end Session

end Elementwise.Store
