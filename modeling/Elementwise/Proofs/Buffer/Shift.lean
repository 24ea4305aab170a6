import Elementwise.Proofs.Buffer.Simulation
import Elementwise.Proofs.Buffer.Upkeep
import Elementwise.Proofs.Device.Shift

/-!
# Stores that have given out different names

A store that was used before and is empty again differs from a new one in the
names, stamps and handles that it gives out next.  One store is ahead of another
if all of these differ by fixed numbers and everything else is the same; of the
registry only the entries for live buffers count, as the dead ones are dropped
at other times.

Every action then does the same on both.  The queue of evictable buffers in
particular is the same, since stamps are in the same order and the registries
list the live buffers in the same order.
-/

namespace Elementwise

/-- How far the names, stamps and handles of one store lie behind those of another. -/
structure Shift where
  buffers : Nat
  handles : Nat
  stamps : Nat

namespace Shift

variable {α : Type}

/-- A buffer under the name that lies further on. -/
def name (shift : Shift) (buffer : BufferId) : BufferId :=
  ⟨buffer.index + shift.buffers⟩

/-- Contents whose block has the handle that lies further on. -/
def contents (shift : Shift) : Contents α → Contents α
  | .device block => .device (block.shift shift.handles)
  | other => other

/-- A buffer whose block and stamp lie further on. -/
def buffer (shift : Shift) (found : Buffer α) : Buffer α :=
  { found with contents := shift.contents found.contents, stamp := found.stamp + shift.stamps }

variable {shift : Shift}

theorem name_inj {buffer other : BufferId} :
    shift.name buffer = shift.name other ↔ buffer = other := by
  obtain ⟨index⟩ := buffer
  obtain ⟨indexOther⟩ := other
  simp [name]

theorem tier_contents (contents : Contents α) : (shift.contents contents).tier = contents.tier := by
  cases contents <;> rfl

theorem isEvictable_buffer (device : Option DeviceId) (found : Buffer α) :
    (shift.buffer found).isEvictable device = found.isEvictable device := by
  obtain ⟨length, contents, location, stamp, holders, leases⟩ := found
  cases contents <;> rfl

theorem isWanted_buffer (found : Buffer α) : (shift.buffer found).isWanted = found.isWanted :=
  rfl

end Shift

namespace Store

variable
    {α β γ : Type}
    [Arithmetic α]
    {shift : Shift}
    {left right : Store α}
    {buffer : BufferId}

/-- The second store is the first one with other names, stamps and handles. -/
structure Ahead (shift : Shift) (left right : Store α) : Prop where
  accelerator : left.accelerator.Ahead shift.handles right.accelerator
  clock : right.clock = left.clock + shift.stamps
  nextIndex : right.nextIndex = left.nextIndex + shift.buffers
  buffers : ∀ buffer, right.buffers.get? (shift.name buffer) =
    (left.buffers.get? buffer).map shift.buffer
  registry : right.registry.filter right.buffers.contains =
    (left.registry.filter left.buffers.contains).map shift.name

namespace Ahead

omit [Arithmetic α] in
theorem contents? (ahead : Ahead shift left right) (buffer : BufferId) :
    right.contents? (shift.name buffer) = (left.contents? buffer).map shift.contents := by
  unfold Store.contents?
  rw [ahead.buffers, Option.map_map, Option.map_map]
  rfl

omit [Arithmetic α] in
theorem claim? (ahead : Ahead shift left right) (buffer : BufferId) :
    right.claim? (shift.name buffer) = left.claim? buffer := by
  unfold Store.claim?
  rw [ahead.buffers, Option.map_map]
  rfl

/-! ## The queue of evictable buffers -/

omit [Arithmetic α] in
theorem registered (ahead : Ahead shift left right) :
    right.registered = left.registered.map fun entry =>
      (shift.name entry.1, shift.buffer entry.2) := by
  have live : ∀ store : Store α, store.registered =
      (store.registry.filter store.buffers.contains).filterMap fun buffer =>
        (buffer, ·) <$> store.buffers.get? buffer := by
    intro store
    rw [Store.registered, List.filterMap_filter]
    refine List.filterMap_congr fun buffer _ => ?_
    unfold Table.contains
    cases store.buffers.get? buffer <;> rfl
  rw [live, live, ahead.registry, List.filterMap_map, List.map_filterMap]
  refine List.filterMap_congr fun buffer _ => ?_
  rw [Function.comp_apply, ahead.buffers]
  cases left.buffers.get? buffer <;> rfl

omit [Arithmetic α] in
theorem evictable (ahead : Ahead shift left right) (device : Option DeviceId) :
    right.evictable device = (left.evictable device).map shift.name := by
  unfold Store.evictable
  have among : right.registered.filter (·.2.isEvictable device) =
      (left.registered.filter (·.2.isEvictable device)).map fun entry =>
        (shift.name entry.1, shift.buffer entry.2) := by
    rw [ahead.registered, List.filter_map]
    refine congrArg _ (List.filter_congr fun entry _ => ?_)
    exact Shift.isEvictable_buffer device entry.2
  have sorted := List.map_mergeSort (l := left.registered.filter (·.2.isEvictable device))
    (f := fun entry => (shift.name entry.1, shift.buffer entry.2))
    (r := fun left right => decide (left.2.stamp ≤ right.2.stamp))
    (s := fun left right => decide (left.2.stamp ≤ right.2.stamp))
    fun entry _ other _ => decide_eq_decide.2 (Nat.add_le_add_iff_right).symm
  rw [among, ← sorted, List.map_map, List.map_map]
  rfl

/-! ## Changes of a store -/

omit [Arithmetic α] in
/-- A change of one buffer. -/
theorem revise
    (ahead : Ahead shift left right)
    (buffer : BufferId)
    {change changeOther : Buffer α → Buffer α}
    (same : ∀ found, changeOther (shift.buffer found) = shift.buffer (change found)) :
    Ahead shift { left with buffers := left.buffers.modify buffer change }
      { right with buffers := right.buffers.modify (shift.name buffer) changeOther } where
  accelerator := ahead.accelerator
  clock := ahead.clock
  nextIndex := ahead.nextIndex
  buffers other := by
    simp only [Table.get?_modify, Shift.name_inj, ahead.buffers]
    split
    · rw [Option.map_map, Option.map_map]
      exact Option.map_congr fun found _ => same found
    · rfl
  registry := by
    have still : ∀ (table : Table BufferId (Buffer α)) (key : BufferId)
        (change : Buffer α → Buffer α), (table.modify key change).contains = table.contains := by
      intro table key change
      funext other
      unfold Table.contains
      rw [Table.get?_modify]
      split
      · exact Option.isSome_map
      · rfl
    rw [still, still]
    exact ahead.registry

omit [Arithmetic α] in
theorem tick
    (ahead : Ahead shift left right) :
    Ahead shift { left with clock := left.clock + 1 } { right with clock := right.clock + 1 } where
  accelerator := ahead.accelerator
  clock := by
    show right.clock + 1 = left.clock + 1 + shift.stamps
    rw [ahead.clock, Nat.add_right_comm]
  nextIndex := ahead.nextIndex
  buffers := ahead.buffers
  registry := ahead.registry

omit [Arithmetic α] in
theorem onAccelerator
    (ahead : Ahead shift left right)
    {accelerator other : Accelerator α}
    (accelerators : accelerator.Ahead shift.handles other) :
    Ahead shift { left with accelerator := accelerator } { right with accelerator := other } :=
  ⟨accelerators, ahead.clock, ahead.nextIndex, ahead.buffers, ahead.registry⟩

omit [Arithmetic α] in
theorem touch (ahead : Ahead shift left right) :
    Ahead shift (left.touch buffer) (right.touch (shift.name buffer)) := by
  refine ahead.tick.revise buffer fun found => ?_
  show ({ shift.buffer found with stamp := right.clock + 1 } : Buffer α) = _
  rw [ahead.clock, Nat.add_right_comm]
  rfl

omit [Arithmetic α] in
theorem pin (ahead : Ahead shift left right) :
    Ahead shift (left.pin buffer) (right.pin (shift.name buffer)) :=
  ahead.revise buffer fun _ => rfl

omit [Arithmetic α] in
theorem hold (ahead : Ahead shift left right) :
    Ahead shift (left.hold buffer) (right.hold (shift.name buffer)) :=
  ahead.revise buffer fun _ => rfl

theorem discard
    {accelerator other : Accelerator α}
    (accelerators : accelerator.Ahead shift.handles other)
    (contents : Contents α) :
    (contents.discardOn accelerator).Ahead shift.handles
      ((shift.contents contents).discardOn other) := by
  cases contents with
  | empty => exact accelerators
  | host values => exact accelerators
  | device block => exact accelerators.free block

theorem replace
    (ahead : Ahead shift left right)
    (contents : Contents α) :
    Ahead shift (left.replace buffer contents)
      (right.replace (shift.name buffer) (shift.contents contents)) := by
  unfold Store.replace
  rw [ahead.buffers]
  cases left.buffers.get? buffer with
  | none => exact ahead
  | some found =>
    refine (ahead.onAccelerator (discard ahead.accelerator found.contents)).revise buffer
      fun found => ?_
    rw [Shift.tier_contents]
    rfl

omit [Arithmetic α] in
theorem erase (ahead : Ahead shift left right) (buffer : BufferId) :
    Ahead shift { left with buffers := left.buffers.erase buffer }
      { right with buffers := right.buffers.erase (shift.name buffer) } where
  accelerator := ahead.accelerator
  clock := ahead.clock
  nextIndex := ahead.nextIndex
  buffers other := by
    simp only [Table.get?_erase, Shift.name_inj, ahead.buffers]
    split <;> rfl
  registry := by
    have rest : ∀ (table : Table BufferId (Buffer α)) (key : BufferId),
        (table.erase key).contains = fun other => decide (other ≠ key) && table.contains other := by
      intro table key
      funext other
      unfold Table.contains
      rw [Table.get?_erase]
      by_cases same : key = other
      · simp [same]
      · simp [same, Ne.symm same]
    rw [rest, rest, ← List.filter_filter, ← List.filter_filter, ahead.registry, List.filter_map]
    refine congrArg _ (List.filter_congr fun other _ => ?_)
    exact decide_eq_decide.2 (not_congr Shift.name_inj)

theorem reclaim (ahead : Ahead shift left right) :
    Ahead shift (left.reclaim buffer) (right.reclaim (shift.name buffer)) := by
  unfold Store.reclaim
  rw [ahead.buffers]
  cases left.buffers.get? buffer with
  | none => exact ahead
  | some found =>
    dsimp only [Option.map_some]
    rw [Shift.isWanted_buffer]
    split
    · exact ahead
    · exact (ahead.onAccelerator (discard ahead.accelerator found.contents)).erase buffer

theorem drop (ahead : Ahead shift left right) :
    Ahead shift (left.drop buffer) (right.drop (shift.name buffer)) := by
  have fewer : Ahead shift (left.revised buffer fun found =>
      { found with holders := found.holders - 1 }) (right.revised (shift.name buffer) fun found =>
        { found with holders := found.holders - 1 }) := ahead.revise buffer fun _ => rfl
  exact fewer.reclaim

theorem unpin (ahead : Ahead shift left right) :
    Ahead shift (left.unpin buffer) (right.unpin (shift.name buffer)) := by
  have fewer : Ahead shift (left.revised buffer fun found =>
      { found with leases := found.leases - 1 }) (right.revised (shift.name buffer) fun found =>
        { found with leases := found.leases - 1 }) := ahead.revise buffer fun _ => rfl
  exact fewer.reclaim

omit [Arithmetic α] in
/-- Of the live buffers, a new one is entered and none is removed, whatever else is dropped. -/
theorem live_enlist
    (store : Store α)
    (buffer : BufferId) :
    (store.enlist buffer).registry.filter store.buffers.contains =
      (buffer :: store.registry).filter store.buffers.contains := by
  unfold enlist
  dsimp only
  split
  · rw [List.filter_filter]
    exact List.filter_congr fun _ _ => Bool.and_self _
  · rfl

omit [Arithmetic α] in
theorem live_register
    {store : Store α}
    (older : ∀ buffer ∈ store.registry, buffer.index < store.nextIndex)
    (length : Nat)
    (contents : Contents α) :
    (store.register length contents).2.registry.filter
        (store.register length contents).2.buffers.contains =
      ⟨store.nextIndex⟩ :: store.registry.filter store.buffers.contains := by
  let made : Buffer α :=
    { length, contents, location := contents.tier, stamp := store.clock + 1, holders := 1,
      leases := 0 }
  have listed := live_enlist
    { store with
      clock := store.clock + 1
      nextIndex := store.nextIndex + 1
      buffers := store.buffers.insert ⟨store.nextIndex⟩ made }
    ⟨store.nextIndex⟩
  refine listed.trans ?_
  rw [List.filter_cons_of_pos (by simp [Table.contains])]
  refine congrArg _ (List.filter_congr fun buffer member => ?_)
  have other : ¬ (⟨store.nextIndex⟩ : BufferId) = buffer := by
    rintro rfl
    exact Nat.lt_irrefl _ (older _ member)
  simp [Table.contains, other]

omit [Arithmetic α] in
theorem register
    (ahead : Ahead shift left right)
    (older : ∀ buffer ∈ left.registry, buffer.index < left.nextIndex)
    (olderOther : ∀ buffer ∈ right.registry, buffer.index < right.nextIndex)
    (length : Nat)
    {contents : Contents α}
    (still : shift.contents contents = contents) :
    (right.register length contents).1 = shift.name (left.register length contents).1 ∧
      Ahead shift (left.register length contents).2 (right.register length contents).2 := by
  have names : (⟨right.nextIndex⟩ : BufferId) = shift.name ⟨left.nextIndex⟩ :=
    congrArg BufferId.mk ahead.nextIndex
  refine ⟨names, ahead.accelerator, ahead.tick.clock, ?_, fun buffer => ?_, ?_⟩
  · show right.nextIndex + 1 = left.nextIndex + 1 + shift.buffers
    rw [ahead.nextIndex, Nat.add_right_comm]
  · show (right.buffers.insert ⟨right.nextIndex⟩ _).get? _ =
      ((left.buffers.insert ⟨left.nextIndex⟩ _).get? _).map _
    rw [Table.get?_insert, Table.get?_insert, names, ahead.buffers]
    simp only [Shift.name_inj]
    split
    · unfold Shift.buffer
      simp only [Option.map_some, still, ahead.clock, Nat.add_right_comm]
    · rfl
  · rw [live_register older, live_register olderOther, names, ahead.registry]
    rfl

end Ahead

/-! ## Actions on both -/

omit [Arithmetic α] in
/-- The block behind a buffer of a valid store is live. -/
theorem live_of_contents?
    {block : Block}
    (valid : left.Valid)
    (stored : left.contents? buffer = some (.device block)) :
    left.accelerator.pool.Live block := by
  obtain ⟨claim, claimed⟩ := exists_claim stored
  obtain ⟨-, -, values, found, -⟩ := valid.fits buffer claim _ claimed stored
  exact ⟨values, found⟩

/-- Stores of which the second one is ahead. -/
def shifting (shift : Shift) : Coupling Error (Store α) where
  related := Ahead shift
  failed reason other left right := other = reason.rename shift.name ∧ Ahead shift left right
  parts := False

/-- Stores of which the second one is ahead, while the books of both are right. -/
def shifted (shift : Shift) (make makeOther : Make) : Coupling Error (Store α) where
  related left right :=
    Ahead shift left right ∧ left.Accounted make ∅ ∧ right.Accounted makeOther ∅
  failed reason other left right :=
    other = reason.rename shift.name ∧
      Ahead shift left right ∧ left.Accounted make ∅ ∧ right.Accounted makeOther ∅
  parts := False

section

variable {change : β → γ}

omit [Arithmetic α] in
/-- An attempt at a call goes the same in both. -/
theorem shifting_attempt
    {method : Method}
    {act : Pool α → Except DeviceError (β × Pool α)}
    {actOther : Pool α → Except DeviceError (γ × Pool α)}
    (ahead : Ahead shift left right)
    (same : Pool.SameOutcome shift.handles change (act left.accelerator.pool)
      (actOther right.accelerator.pool)) :
    (shifting shift).Agrees (Except.map change) (attempt (Accelerator.call method act))
      (attempt (Accelerator.call method actOther)) left right := by
  have fault := ahead.accelerator.faults method 0
  rw [Nat.add_zero, Nat.add_zero] at fault
  have refused := ahead.onAccelerator
    (ahead.accelerator.bump method ahead.accelerator.pool)
  refine inStep_of_meet ?_
  unfold attempt Accelerator.call
  dsimp only
  rw [fault]
  cases left.accelerator.faults method (left.accelerator.calls.get method) with
  | some error => exact ⟨rfl, refused⟩
  | none =>
    dsimp only
    cases acted : act left.accelerator.pool with
    | error error =>
      cases actedOther : actOther right.accelerator.pool with
      | ok done => rw [acted, actedOther] at same; exact same.elim
      | error other =>
        rw [acted, actedOther] at same
        cases same
        exact ⟨rfl, refused⟩
    | ok done =>
      cases actedOther : actOther right.accelerator.pool with
      | error other => rw [acted, actedOther] at same; exact same.elim
      | ok doneOther =>
        rw [acted, actedOther] at same
        obtain ⟨answers, pools⟩ := same
        exact ⟨congrArg Except.ok answers,
          ahead.onAccelerator (ahead.accelerator.bump method pools)⟩

theorem rename_ofDevice (name : BufferId → BufferId) (error : DeviceError) :
    (Error.ofDevice error).rename name = Error.ofDevice error := by
  cases error <;> rfl

omit [Arithmetic α] in
theorem shifting_perform
    {method : Method}
    {act : Pool α → Except DeviceError (β × Pool α)}
    {actOther : Pool α → Except DeviceError (γ × Pool α)}
    (ahead : Ahead shift left right)
    (same : Pool.SameOutcome shift.handles change (act left.accelerator.pool)
      (actOther right.accelerator.pool)) :
    (shifting shift).Agrees change (perform (Accelerator.call method act))
      (perform (Accelerator.call method actOther)) left right := by
  refine (shifting_attempt ahead same).bind fun outcome => ?_
  cases outcome with
  | ok answer => exact .pure rfl
  | error error => exact .throw fun _ _ ahead => ⟨(rename_ofDevice _ error).symm, ahead⟩

end

omit [Arithmetic α] in
/-- A run that keeps the books right on both sides. -/
theorem shifted_of_shifting
    {change : β → γ}
    {make makeOther : Make}
    {first : Action α β}
    {second : Action α γ}
    (related : (shifted shift make makeOther).related left right)
    (agrees : (shifting shift).Agrees change first second left right)
    (keeps : Preserves (Accounted make ∅) first)
    (keepsOther : Preserves (Accounted makeOther ∅) second) :
    (shifted shift make makeOther).Agrees change first second left right :=
  (agrees.and_ends (keeps left related.2.1) (keepsOther right related.2.2)).mono
    (fun _ _ _ _ both => ⟨both.1.1, both.1.2, both.2⟩)
    fun _ _ _ _ both => ⟨both.1.1, both.1.2, both.2⟩

section

variable {make makeOther : Make}

omit [Arithmetic α] in
/-- The books need only be right as long as an action goes on. -/
theorem shifting_bind
    {δ ζ : Type}
    {change : β → γ}
    {changeOther : δ → ζ}
    {first : Action α β}
    {second : Action α γ}
    {next : β → Action α δ}
    {nextOther : γ → Action α ζ}
    (here : (shifted shift make makeOther).Agrees change first second left right)
    (there : ∀ answer left right, (shifted shift make makeOther).related left right →
      (shifting shift).Agrees changeOther (next answer) (nextOther (change answer)) left right) :
    (shifting shift).Agrees changeOther (first >>= next) (second >>= nextOther) left right := by
  refine InStep.bind (here.mono ?_ fun _ _ _ _ failed => ⟨failed.1, failed.2.1⟩)
  rintro answer _ after afterwards ⟨rfl, related⟩
  exact there answer after afterwards related

omit [Arithmetic α] in
theorem shifting_find (ahead : Ahead shift left right) :
    InStep (find buffer) (find (shift.name buffer)) left right
      (fun found other after afterwards => after = left ∧ afterwards = right ∧
        left.buffers.get? buffer = some found ∧ other = shift.buffer found)
      (shifting shift).failed False := by
  refine InStep.bind (inStep_of_ok rfl rfl ?_)
  rw [ahead.buffers]
  cases left.buffers.get? buffer with
  | none => exact inStep_throw ⟨rfl, ahead⟩
  | some found => exact inStep_pure ⟨rfl, rfl, rfl, rfl⟩

/-! ## Moves -/

theorem shifting_replace
    (buffer : BufferId)
    {contents other : Contents α}
    (same : other = shift.contents contents) :
    (shifting shift).Simulates id (modify (·.replace buffer contents) : Action α Unit)
      (modify (·.replace (shift.name buffer) other)) :=
  .modify fun _ _ ahead => same ▸ ahead.replace contents

theorem shifting_moveToHost
    (ahead : Ahead shift left right)
    (valid : left.Valid) :
    (shifting shift).Agrees id (moveToHost buffer) (moveToHost (shift.name buffer)) left right := by
  refine InStep.bind ((shifting_find ahead).mono_done ?_)
  rintro ⟨length, contents, location, stamp, holders, leases⟩ _ _ _ ⟨rfl, rfl, present, rfl⟩
  cases contents with
  | host values => exact inStep_pure ⟨rfl, ahead⟩
  | empty => exact shifting_replace buffer rfl _ _ ahead
  | device block =>
    have stored := congrArg (Option.map Buffer.contents) present
    exact (shifting_perform ahead (ahead.accelerator.pool.download
      (live_of_contents? valid stored) length)).bind fun values => shifting_replace buffer rfl

theorem shifted_moveToHost (buffer : BufferId) :
    (shifted shift make makeOther).Simulates id (moveToHost buffer : Action α Unit)
      (moveToHost (shift.name buffer)) :=
  fun _ _ related => shifted_of_shifting related
    (shifting_moveToHost related.1 related.2.1.valid) accounted_moveToHost accounted_moveToHost

omit [Arithmetic α] in
theorem shifted_find (buffer : BufferId) :
    (shifted shift make makeOther).Simulates shift.buffer (find buffer : Action α (Buffer α))
      (find (shift.name buffer)) := by
  intro left right related
  refine shifted_of_shifting related ((shifting_find related.1).mono_done ?_) preserves_find
    preserves_find
  rintro found _ _ _ ⟨rfl, rfl, -, rfl⟩
  exact ⟨rfl, related.1⟩

/-- An eviction that fails on one side fails on the other one, and has no effect. -/
theorem shifted_evict (buffer : BufferId) :
    (shifted shift make makeOther).Simulates id (evict buffer : Action α Nat)
      (evict (shift.name buffer)) := by
  intro left right related
  have moves : (shifted shift make makeOther).Simulates id
      (do let found ← find buffer; moveToHost buffer; pure found.length : Action α Nat)
      (do
        let found ← find (shift.name buffer)
        moveToHost (shift.name buffer)
        pure found.length) :=
    .bind (shifted_find buffer) fun found => .bind (shifted_moveToHost buffer) fun _ => .pure rfl
  have meet := (moves left right related).meet
  refine inStep_of_meet ?_
  unfold evict
  revert meet
  cases (do let found ← find buffer; moveToHost buffer; pure found.length : Action α Nat) left with
  | ok freed after =>
    cases (do
      let found ← find (shift.name buffer)
      moveToHost (shift.name buffer)
      pure found.length : Action α Nat) right with
    | ok other afterwards => exact fun meet => meet
    | error other afterwards => exact fun meet => meet.elim
  | error reason after =>
    cases (do
      let found ← find (shift.name buffer)
      moveToHost (shift.name buffer)
      pure found.length : Action α Nat) right with
    | ok other afterwards => exact fun meet => meet.elim
    | error other afterwards => exact fun meet => ⟨rfl, meet.2⟩

theorem shifted_evictUntil
    (target : Nat)
    (buffers : List BufferId)
    (freed : Nat) :
    (shifted shift make makeOther).Simulates id (evictUntil target buffers freed : Action α Nat)
      (evictUntil target (buffers.map shift.name) freed) := by
  induction buffers generalizing freed with
  | nil => exact .pure rfl
  | cons buffer buffers step =>
    rw [List.map_cons, evictUntil, evictUntil]
    split
    · exact .pure rfl
    · exact .bind (shifted_evict buffer) fun gained => step _

theorem shifted_offload
    (target : Nat)
    (device : Option DeviceId) :
    (shifted shift make makeOther).Simulates id (offload target device : Action α Nat)
      (offload target device) := by
  refine .get_bind fun left right related => ?_
  rw [related.1.evictable]
  exact shifted_evictUntil target _ 0 left right related

/-- A failed attempt at an allocation leaves the books right on both sides. -/
theorem shifting_attempt_allocate
    (related : (shifted shift make makeOther).related left right)
    (length : Nat) :
    InStep (attempt (Accelerator.allocate length))
      (attempt (Accelerator.allocate length)) left right
      (fun outcome other after afterwards =>
        other = outcome.map (Block.shift shift.handles) ∧ Ahead shift after afterwards ∧
          ∀ error, outcome = .error error → (shifted shift make makeOther).related after afterwards)
      (shifting shift).failed False := by
  obtain ⟨ahead, accounted, accountedOther⟩ := related
  refine ((shifting_attempt ahead (ahead.accelerator.pool.allocate length)).and_ends
    (ends_attempt_allocate_accounted accounted length)
    (ends_attempt_allocate_accounted accountedOther length)).mono ?_ fun _ _ _ _ failed => failed.1
  rintro outcome _ after afterwards ⟨⟨rfl, ahead⟩, ⟨-, kept⟩, ⟨-, keptOther⟩⟩
  refine ⟨rfl, ahead, ?_⟩
  rintro error rfl
  exact ⟨ahead, kept error rfl, keptOther error rfl⟩

theorem shifting_allocateBlock
    (related : (shifted shift make makeOther).related left right)
    (length : Nat) :
    (shifting shift).Agrees (Block.shift shift.handles) (allocateBlock length)
      (allocateBlock length) left right := by
  refine InStep.bind ((shifting_attempt_allocate related length).mono_done ?_)
  rintro outcome _ middle middleOther ⟨rfl, ahead, kept⟩
  cases outcome with
  | ok block => exact inStep_pure ⟨rfl, ahead⟩
  | error error =>
    have refused : ∀ error : DeviceError, (shifting shift).Agrees (Block.shift shift.handles)
        (throw (Error.ofDevice error) : Action α Block) (throw (Error.ofDevice error)) middle
        middleOther :=
      fun error => inStep_throw ⟨(rename_ofDevice _ error).symm, ahead⟩
    cases error with
    | invalidBlock handle => exact refused _
    | lengthMismatch expected actual => exact refused _
    | fault reason => exact refused _
    | outOfMemory requested available =>
      have still := kept _ rfl
      refine InStep.bind (inStep_of_ok rfl rfl ?_)
      rw [ahead.accelerator.pool.id]
      refine InStep.bind ((shifted_offload length _ middle middleOther still).mono ?_
        fun _ _ _ _ failed => ⟨failed.1, failed.2.1⟩)
      rintro freed _ after afterwards ⟨rfl, still⟩
      refine InStep.bind ((shifting_attempt_allocate still length).mono_done ?_)
      rintro outcome _ last lastOther ⟨rfl, ahead, -⟩
      cases outcome with
      | ok block => exact inStep_pure ⟨rfl, ahead⟩
      | error error =>
        cases error with
        | outOfMemory requested available => exact inStep_throw ⟨rfl, ahead⟩
        | invalidBlock handle => exact inStep_throw ⟨rfl, ahead⟩
        | lengthMismatch expected actual => exact inStep_throw ⟨rfl, ahead⟩
        | fault reason => exact inStep_throw ⟨rfl, ahead⟩

theorem shifted_moveToAccelerator (buffer : BufferId) :
    (shifted shift make makeOther).Simulates id (moveToAccelerator buffer : Action α Unit)
      (moveToAccelerator (shift.name buffer)) := by
  intro left right related
  refine shifted_of_shifting related ?_ accounted_moveToAccelerator accounted_moveToAccelerator
  refine InStep.bind ((shifting_find related.1).mono_done ?_)
  rintro ⟨length, contents, location, stamp, holders, leases⟩ _ left right ⟨rfl, rfl, -, rfl⟩
  cases contents with
  | device block => exact inStep_pure ⟨rfl, related.1⟩
  | empty =>
    exact (shifting_allocateBlock related length).bind fun block => shifting_replace buffer rfl
  | host values =>
    refine InStep.bind (((shifting_allocateBlock related length).and_ends
      (ends_allocateBlock related.2.1.valid length)
      (ends_allocateBlock related.2.2.valid length)).mono ?_ fun _ _ _ _ failed => failed.1)
    rintro block _ middle middleOther ⟨⟨rfl, ahead⟩, ⟨-, -, granted⟩, -⟩
    refine Coupling.Agrees.bind_id (agrees_unlessDone (shifting_perform ahead
      (ahead.accelerator.pool.upload ⟨_, granted.zeros⟩ values)) ?_) fun _ =>
        shifting_replace buffer rfl
    rintro reason other left right ⟨same, ahead⟩
    exact ⟨same, ahead.onAccelerator (ahead.accelerator.free block)⟩

theorem shifted_move
    (buffer : BufferId)
    (tier : Tier) :
    (shifted shift make makeOther).Simulates id (move buffer tier : Action α Unit)
      (move (shift.name buffer) tier) := by
  cases tier with
  | host => exact shifted_moveToHost buffer
  | accelerator => exact shifted_moveToAccelerator buffer
  | empty =>
    exact fun left right related => shifted_of_shifting related
      (shifting_replace buffer rfl left right related.1) accounted_move
      accounted_move

/-! ## Accesses -/

omit [Arithmetic α] in
theorem shifted_touch (buffer : BufferId) :
    (shifted shift make makeOther).Simulates id (modify (·.touch buffer) : Action α Unit)
      (modify (·.touch (shift.name buffer))) :=
  .modify fun _ _ related => ⟨related.1.touch, related.2.1.touch, related.2.2.touch⟩

theorem shifted_pin (buffer : BufferId) :
    (shifted shift make makeOther).Simulates id (modify (·.pin buffer) : Action α Unit)
      (modify (·.pin (shift.name buffer))) :=
  .modify fun _ _ related => ⟨related.1.pin, related.2.1.pin, related.2.2.pin⟩

omit [Arithmetic α] in
theorem shifted_claim (buffer : BufferId) :
    (shifted shift make makeOther).Simulates id (claim buffer : Action α Unit)
      (claim (shift.name buffer)) := by
  refine .bind (shifted_find buffer) fun found => ?_
  have leases : (shift.buffer found).leases = found.leases := rfl
  dsimp only
  rw [leases]
  split
  · exact .throw_bind fun _ _ related => ⟨rfl, related⟩
  · exact shifted_touch buffer

theorem shifted_ensure
    (buffer : BufferId)
    (tier : Tier) :
    (shifted shift make makeOther).Simulates id (ensure buffer tier : Action α Unit)
      (ensure (shift.name buffer) tier) :=
  .bind (shifted_claim buffer) fun _ => shifted_move buffer tier

theorem shifted_lease
    (buffer : BufferId)
    (tier : Tier) :
    (shifted shift make makeOther).Simulates id (lease buffer tier : Action α Unit)
      (lease (shift.name buffer) tier) := by
  unfold lease
  dsimp only
  split
  · exact .throw_bind fun _ _ related => ⟨rfl, related⟩
  refine .bind (shifted_touch buffer) fun _ => .bind (shifted_find buffer) fun found => ?_
  have leases : (shift.buffer found).leases = found.leases := rfl
  have there : (shift.buffer found).tier = found.tier := Shift.tier_contents found.contents
  rw [leases, there]
  split
  · split
    · exact .throw_bind fun _ _ related => ⟨rfl, related⟩
    · exact .bind (shifted_move buffer tier) fun _ => shifted_pin buffer
  · exact shifted_pin buffer

omit [Arithmetic α] in
theorem shifted_hostValues (buffer : BufferId) :
    (shifted shift make makeOther).Simulates id (hostValues buffer : Action α (Array α))
      (hostValues (shift.name buffer)) := by
  refine .bind (shifted_find buffer) fun found => ?_
  obtain ⟨length, contents, location, stamp, holders, leases⟩ := found
  cases contents <;> exact .pure rfl

theorem shifted_read (buffer : BufferId) :
    (shifted shift make makeOther).Simulates id (read buffer : Action α (Array α))
      (read (shift.name buffer)) := by
  refine .bind (shifted_lease buffer .host) fun _ left right related => ?_
  exact agrees_followedBy (shifted_hostValues buffer left right related)
    (fun failed => ⟨failed.1, failed.2.1.unpin, failed.2.2.1.unpin, failed.2.2.2.unpin⟩)
    fun related => ⟨related.1.unpin, related.2.1.unpin, related.2.2.unpin⟩

theorem shifted_write
    (buffer : BufferId)
    (values : Array α) :
    (shifted shift make makeOther).Simulates id (write buffer values)
      (write (shift.name buffer) values) := by
  intro left right related
  refine shifted_of_shifting related ?_ (accounted_write values) (accounted_write values)
  refine shifting_bind (shifted_find buffer left right related) fun found left right related => ?_
  have length : (shift.buffer found).length = found.length := rfl
  dsimp only
  rw [length]
  split
  · exact inStep_of_error rfl rfl ⟨rfl, related.1⟩
  · exact shifting_bind (shifted_claim buffer left right related) fun _ left right related =>
      shifting_replace buffer rfl left right related.1

theorem shifted_update
    (buffer : BufferId)
    (change : (size : Nat) → Vector α size → Vector α size) :
    (shifted shift make makeOther).Simulates id (update buffer change)
      (update (shift.name buffer) change) := by
  intro left right related
  refine shifted_of_shifting related ?_ (accounted_update change) (accounted_update change)
  exact shifting_bind (shifted_claim buffer left right related) fun _ left right related =>
    shifting_bind (shifted_moveToHost buffer left right related) fun _ left right related =>
      shifting_bind (shifted_hostValues buffer left right related) fun values left right related =>
        (shifting_replace buffer rfl left right related.1).bind fun _ => .pure rfl

theorem shifted_fill
    (buffer : BufferId)
    (value : α) :
    (shifted shift make makeOther).Simulates id (fill buffer value)
      (fill (shift.name buffer) value) := by
  intro left right related
  refine shifted_of_shifting related ?_ (accounted_fill value) (accounted_fill value)
  refine shifting_bind (shifted_claim buffer left right related) fun _ left right related => ?_
  refine InStep.bind ((shifting_find related.1).mono_done ?_)
  rintro ⟨length, contents, location, stamp, holders, leases⟩ _ _ _ ⟨rfl, rfl, present, rfl⟩
  cases contents with
  | host values => exact shifting_replace buffer rfl _ _ related.1
  | empty => exact shifting_replace buffer rfl _ _ related.1
  | device block =>
    have stored := congrArg (Option.map Buffer.contents) present
    exact shifting_perform related.1 (related.1.accelerator.pool.fill
      (live_of_contents? related.2.1.valid stored) value)

/-! ## New buffers -/

omit [Arithmetic α] in
theorem shifted_register
    {length : Nat}
    {contents : Contents α}
    (still : shift.contents contents = contents)
    (keeps : ∀ make : Make, Preserves (Accounted make ∅)
      (modifyGet (·.register length contents) : Action α BufferId)) :
    (shifted shift make makeOther).Simulates shift.name
      (modifyGet (·.register length contents) : Action α BufferId)
      (modifyGet (·.register length contents)) :=
  fun _ _ related => shifted_of_shifting related
    (inStep_modifyGet (related.1.register related.2.1.older related.2.2.older length still))
    (keeps make) (keeps makeOther)

/-! ## Launches -/

omit [Arithmetic α] in
/-- The blocks behind buffers on one side are those on the other, under other handles. -/
theorem Ahead.behind
    {buffers : List BufferId}
    {blocks others : List Block}
    (ahead : Ahead shift left right)
    (behind : left.Behind buffers blocks)
    (behindOther : right.Behind (buffers.map shift.name) others) :
    others = blocks.map (Block.shift shift.handles) := by
  induction behind generalizing others with
  | nil =>
    cases behindOther
    rfl
  | cons stored _ step =>
    cases behindOther with
    | cons storedOther rest =>
      rw [ahead.contents?, stored] at storedOther
      cases storedOther
      rw [step rest]
      rfl

omit [Arithmetic α] in
theorem live_of_behind
    {buffers : List BufferId}
    {blocks : List Block}
    (valid : left.Valid)
    (behind : left.Behind buffers blocks) :
    ∀ block ∈ blocks, left.accelerator.pool.Live block := by
  intro block member
  obtain ⟨buffer, -, stored⟩ := exists_of_forall₂ behind.flip block member
  exact live_of_contents? valid stored

end

/-- A store and one that is ahead of it simulate each other. -/
def simulationOfShift (shift : Shift) (make makeOther : Make) : Simulation α where
  toCoupling := shifted shift make makeOther
  name := shift.name
  lt_iff := Nat.add_lt_add_iff_right
  valid related := related.2.1.valid
  validOther related := related.2.2.valid
  claim? related := related.1.claim?
  unsupported related := .inr related.1.accelerator.pool.unsupported
  refused related reason := ⟨rfl, related⟩
  drop related _ := ⟨related.1.drop, related.2.1.drop, related.2.2.drop⟩
  unpin related _ := ⟨related.1.unpin, related.2.1.unpin, related.2.2.unpin⟩
  drop_failed failed _ := ⟨failed.1, failed.2.1.drop, failed.2.2.1.drop, failed.2.2.2.drop⟩
  unpin_failed failed _ := ⟨failed.1, failed.2.1.unpin, failed.2.2.1.unpin, failed.2.2.2.unpin⟩
  lease buffer := shifted_lease buffer .accelerator
  read := shifted_read
  write := shifted_write
  release buffer := shifted_ensure buffer .empty
  update := shifted_update
  fill := shifted_fill
  allocate length := shifted_register rfl fun _ => accounted_allocate length
  allocateFrom values := shifted_register rfl fun _ => accounted_allocateFrom values
  copy := by
    intro left right source target input inputOther output outputOther related read readOther
      written writtenOther
    have inputs := related.1.behind (.cons read .nil) (.cons readOther .nil)
    have outputs := related.1.behind (.cons written .nil) (.cons writtenOther .nil)
    cases inputs
    cases outputs
    exact shifted_of_shifting related (shifting_perform related.1
      (related.1.accelerator.pool.copy (live_of_contents? related.2.1.valid read)
        (live_of_contents? related.2.1.valid written))) accounted_copy accounted_copy
  launch := by
    intro ω length kernel left right sources targets inputs inputsOther outputs outputsOther
      related read readOther written writtenOther
    obtain rfl := related.1.behind read readOther
    obtain rfl := related.1.behind written writtenOther
    exact shifted_of_shifting related (shifting_perform related.1
      (related.1.accelerator.pool.launch length kernel (live_of_behind related.2.1.valid read)
        (live_of_behind related.2.1.valid written))) accounted_launch accounted_launch

end Store

end Elementwise
