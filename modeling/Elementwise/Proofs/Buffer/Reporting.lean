import Elementwise.Proofs.Buffer.Launch
import Elementwise.Proofs.Buffer.Recency

/-!
# Actions that end without a fault

A fault is no error that a user is told of: a size has left the range of machine
sizes, or an index lies outside its array.  On an accelerator that is not scheduled
to end in one, buffers are moved, leased, read and written without a fault,
whatever else may go wrong.  A launch ends in one only if its kernel does.
-/

namespace Elementwise

/-- The error is one that a user is told of. -/
def Error.IsReport (reason : Error) : Prop :=
  ∀ cause, reason ≠ .fault cause

theorem Error.isReport_inconsistency (cause : Inconsistency) : (inconsistency cause).IsReport :=
  nofun

theorem Error.isReport_axisOutOfRange (axis rank : Nat) : (axisOutOfRange axis rank).IsReport :=
  nofun

theorem Error.isReport_ofDevice
    {reason : DeviceError}
    (reported : ∀ cause, reason ≠ .fault cause) :
    (Error.ofDevice reason).IsReport := by
  cases reason with
  | fault cause => exact absurd rfl (reported cause)
  | outOfMemory requested available => exact nofun
  | invalidBlock handle => exact nofun
  | lengthMismatch expected actual => exact nofun

section

variable
    {σ β γ : Type}
    {holds : σ → Prop}
    {first : EStateM Error σ β}
    {next : β → EStateM Error σ γ}
    {before : σ}

/-- An action does not end in a fault, and a condition holds after it if it answers. -/
def Reports (holds : σ → Prop) (action : EStateM Error σ β) (before : σ) : Prop :=
  Ends action before (fun _ after => holds after) fun reason _ => reason.IsReport

namespace Reports

theorem bind
    (reports : Reports holds first before)
    (rest : ∀ answer middle, holds middle → Reports holds (next answer) middle) :
    Reports holds (first >>= next) before := by
  unfold Reports
  rw [ends_bind_iff]
  exact reports.mono (fun answer middle => rest answer middle) fun _ _ reported => reported

/-- What holds anyway after the first part may be used for the rest. -/
theorem bind_ends
    {later : σ → Prop}
    {done : β → σ → Prop}
    {failed : Error → σ → Prop}
    (reports : Reports holds first before)
    (ends : Ends first before done failed)
    (rest : ∀ answer middle, holds middle → done answer middle →
      Reports later (next answer) middle) :
    Reports later (first >>= next) before := by
  unfold Reports
  rw [ends_bind_iff]
  exact (reports.and ends).mono (fun answer middle both => rest answer middle both.1 both.2)
    fun _ _ failed => failed.1

/-- The first part only looks at the state. -/
theorem bind_still
    {known : β → Prop}
    (ends : Ends first before (fun answer after => after = before ∧ known answer)
      fun reason _ => reason.IsReport)
    (rest : ∀ answer, known answer → Reports holds (next answer) before) :
    Reports holds (first >>= next) before := by
  unfold Reports
  rw [ends_bind_iff]
  refine ends.mono ?_ fun _ _ reported => reported
  rintro answer _ ⟨rfl, held⟩
  exact rest answer held

end Reports

end

/-! ## Calls of the accelerator -/

namespace Pool

variable
    {α ω : Type}
    [Arithmetic α]
    {pool : Pool α}
    {block : Block}
    {length : Nat}
    {cause : Fault}

omit [Arithmetic α] in
theorem contents_ne_fault : pool.contents block ≠ .error (.fault cause) := by
  unfold contents
  split <;> exact nofun

theorem checkLength_ne_fault
    {expected actual : Nat} :
    checkLength expected actual ≠ .error (.fault cause) := by
  unfold checkLength
  split <;> exact nofun

theorem allocate_ne_fault : pool.allocate length ≠ .error (.fault cause) := by
  unfold allocate
  split <;> exact nofun

omit [Arithmetic α] in
theorem download_ne_fault : pool.download block length ≠ .error (.fault cause) := by
  intro failed
  rcases bind_eq_error_iff.1 failed with first | ⟨current, -, rest⟩
  · exact contents_ne_fault first
  · rcases bind_eq_error_iff.1 rest with second | ⟨_, -, last⟩
    · exact checkLength_ne_fault second
    · cases last

omit [Arithmetic α] in
theorem upload_ne_fault
    {values : Array α} :
    pool.upload block values ≠ .error (.fault cause) := by
  intro failed
  rcases bind_eq_error_iff.1 failed with first | ⟨current, -, rest⟩
  · exact contents_ne_fault first
  · rcases bind_eq_error_iff.1 rest with second | ⟨_, -, last⟩
    · exact checkLength_ne_fault second
    · cases last

omit [Arithmetic α] in
theorem checkOutput_ne_fault : pool.checkOutput length block ≠ .error (.fault cause) := by
  intro failed
  rcases bind_eq_error_iff.1 failed with first | ⟨current, -, rest⟩
  · exact contents_ne_fault first
  · split at rest <;> cases rest

/-- A launch ends in a fault only if its kernel does, on what its inputs hold. -/
theorem rows_of_launch_eq_fault
    {inputs outputs : List Block}
    {kernel : Kernel α ω}
    (failed : pool.launch length inputs outputs kernel = .error (.fault cause)) :
    ∃ views, pool.Views inputs views ∧
      kernel.rows views.toArray (if outputs.isEmpty then 0 else length) = .error cause := by
  rcases bind_eq_error_iff.1 failed with refused | ⟨_, -, rest⟩
  · obtain ⟨output, -, stopped⟩ := exists_of_forM_eq_error refused
    exact absurd stopped checkOutput_ne_fault
  · rcases bind_eq_error_iff.1 rest with unread | ⟨views, read, runs⟩
    · obtain ⟨input, -, stopped⟩ := exists_of_mapM_eq_error unread
      exact absurd stopped contents_ne_fault
    · refine ⟨views, (mapM_eq_ok_iff.1 read).imp fun _ _ => contents_eq_ok_iff.1, ?_⟩
      cases ran : kernel.rows views.toArray (if outputs.isEmpty then 0 else length) with
      | error other =>
        simp only [ran] at runs
        cases runs
        rfl
      | ok rows =>
        simp only [ran] at runs
        cases runs

end Pool

namespace Store

variable
    {α β ω : Type}
    [Arithmetic α]
    {before : Store α}
    {buffer : BufferId}

/-! ## Stores on which no fault is scheduled -/

/-- No call of the accelerator is scheduled to end in a fault. -/
def Faultless (store : Store α) : Prop :=
  ∀ method call cause, store.accelerator.faults method call ≠ some (.fault cause)

theorem faults_discardOn
    (contents : Contents α)
    (accelerator : Accelerator α) :
    (contents.discardOn accelerator).faults = accelerator.faults := by
  cases contents <;> rfl

namespace Faultless

theorem replace
    {contents : Contents α}
    (faultless : before.Faultless) :
    (before.replace buffer contents).Faultless := by
  unfold Store.replace
  split
  · exact faultless
  · intro method call cause
    rw [faults_discardOn]
    exact faultless method call cause

theorem reclaim (faultless : before.Faultless) : (before.reclaim buffer).Faultless := by
  unfold Store.reclaim
  split
  · exact faultless
  · split
    · exact faultless
    · intro method call cause
      rw [faults_discardOn]
      exact faultless method call cause

omit [Arithmetic α] in
theorem revised
    {change : Buffer α → Buffer α}
    (faultless : before.Faultless) :
    (before.revised buffer change).Faultless :=
  faultless

theorem drop (faultless : before.Faultless) : (before.drop buffer).Faultless :=
  faultless.revised.reclaim

theorem unpin (faultless : before.Faultless) : (before.unpin buffer).Faultless :=
  faultless.revised.reclaim

end Faultless

theorem retreating_faultless : Retreating (Faultless : Store α → Prop) where
  download _ _ _ faultless := ends_perform (fun _ _ _ _ => faultless) fun _ _ => faultless
  replace _ _ _ faultless := faultless.replace

/-! ## Ways of building actions -/

section

variable
    {action : Action α β}
    {change : Store α → Store α}
    (reports : Reports Faultless action before)

include reports

omit [Arithmetic α] in
theorem reports_followedBy
    (kept : ∀ store, store.Faultless → (change store).Faultless) :
    Reports Faultless (action.followedBy change) before := by
  unfold Reports
  rw [ends_followedBy_iff]
  exact reports.mono (fun _ after => kept after) fun _ _ reported => reported

omit [Arithmetic α] in
theorem reports_unlessDone : Reports Faultless (action.unlessDone change) before := by
  unfold Reports
  rw [ends_unlessDone_iff]
  exact reports

end

omit [Arithmetic α] in
theorem reports_find (faultless : before.Faultless) : Reports Faultless (find buffer) before :=
  ends_find (fun _ _ _ => faultless) fun _ => nofun

omit [Arithmetic α] in
theorem ends_attempt_reports
    {method : Method}
    {act : Pool α → Except DeviceError (β × Pool α)}
    {failed : Error → Store α → Prop}
    (faultless : before.Faultless)
    (acts : ∀ cause, act before.accelerator.pool ≠ .error (.fault cause)) :
    Ends (attempt (Accelerator.call method act)) before
      (fun outcome after => after.Faultless ∧
        ∀ reason, outcome = .error reason → (Error.ofDevice reason).IsReport) failed := by
  unfold Ends attempt Accelerator.call
  simp only
  cases scheduled : before.accelerator.faults method (before.accelerator.calls.get method) with
  | some reason =>
    refine ⟨faultless, ?_⟩
    rintro _ ⟨⟩
    exact Error.isReport_ofDevice fun cause same => faultless _ _ cause (same ▸ scheduled)
  | none =>
    cases acted : act before.accelerator.pool with
    | error reason =>
      refine ⟨faultless, ?_⟩
      rintro _ ⟨⟩
      exact Error.isReport_ofDevice fun cause same => acts cause (same ▸ acted)
    | ok result => exact ⟨faultless, nofun⟩

omit [Arithmetic α] in
/-- A call that the pool does not answer with a fault. -/
theorem reports_perform
    {method : Method}
    {act : Pool α → Except DeviceError (β × Pool α)}
    (faultless : before.Faultless)
    (acts : ∀ cause, act before.accelerator.pool ≠ .error (.fault cause)) :
    Reports Faultless (perform (Accelerator.call method act)) before := by
  unfold Reports perform
  rw [ends_bind_iff]
  refine (ends_attempt_reports faultless acts).mono ?_ fun _ _ reported => reported
  rintro (reason | answer) after ⟨faultless, reports⟩
  · exact reports reason rfl
  · exact faultless

/-! ## Moving buffers -/

theorem reports_moveToHost
    (faultless : before.Faultless) :
    Reports Faultless (moveToHost buffer) before := by
  refine .bind (reports_find faultless) fun found middle faultless => ?_
  cases found.contents with
  | host values => exact faultless
  | empty => exact faultless.replace
  | device block =>
    refine .bind (reports_perform faultless fun _ => Pool.download_ne_fault) ?_
    exact fun _ _ faultless => faultless.replace

/-- Evictions never fail. -/
theorem reports_evictUntil
    {target freed : Nat}
    {buffers : List BufferId}
    (faultless : before.Faultless) :
    Reports Faultless (evictUntil target buffers freed) before := by
  induction buffers generalizing before freed with
  | nil => exact faultless
  | cons buffer buffers step =>
    rw [evictUntil]
    split
    · exact faultless
    · refine .bind ?_ fun gained middle faultless => step faultless
      have moved : Preserves Faultless
          (do let found ← find buffer; moveToHost buffer; pure found.length : Action α Nat) :=
        .bind preserves_find fun _ => .bind retreating_faultless.moveToHost fun _ => .pure _
      exact ends_evict_iff.2 (moved before faultless)

theorem reports_allocateBlock
    {length : Nat}
    (faultless : before.Faultless) :
    Reports Faultless (allocateBlock length) before := by
  unfold Reports allocateBlock
  rw [ends_bind_iff]
  refine (ends_attempt_reports faultless fun _ => Pool.allocate_ne_fault).mono ?_
    fun _ _ reported => reported
  rintro outcome middle ⟨faultless, reports⟩
  split
  · exact faultless
  · rw [ends_bind_iff, ends_get_iff, ends_bind_iff]
    refine (reports_evictUntil faultless).mono ?_ fun _ _ reported => reported
    intro freed evicted faultless
    rw [ends_bind_iff]
    refine (ends_attempt_reports faultless fun _ => Pool.allocate_ne_fault).mono ?_
      fun _ _ reported => reported
    rintro second after ⟨faultless, reports⟩
    split
    · exact faultless
    · exact nofun
    · exact reports _ rfl
  · exact reports _ rfl

theorem reports_moveToAccelerator
    (faultless : before.Faultless) :
    Reports Faultless (moveToAccelerator buffer) before := by
  refine .bind (reports_find faultless) fun found middle faultless => ?_
  cases found.contents with
  | device block => exact faultless
  | empty =>
    exact .bind (reports_allocateBlock faultless) fun _ _ faultless => faultless.replace
  | host values =>
    refine .bind (reports_allocateBlock faultless) fun block granted faultless => ?_
    refine .bind (reports_unlessDone ?_) fun _ _ faultless => faultless.replace
    exact reports_perform faultless fun _ failed =>
      Pool.upload_ne_fault (map_eq_error_iff.1 failed)

theorem reports_move
    {tier : Tier}
    (faultless : before.Faultless) :
    Reports Faultless (move buffer tier) before := by
  cases tier with
  | empty => exact faultless.replace
  | host => exact reports_moveToHost faultless
  | accelerator => exact reports_moveToAccelerator faultless

/-! ## Accesses -/

omit [Arithmetic α] in
theorem reports_claim (faultless : before.Faultless) : Reports Faultless (claim buffer) before := by
  refine .bind (reports_find faultless) fun found middle faultless => ?_
  dsimp only
  split
  · exact nofun
  · exact faultless

theorem reports_release
    (faultless : before.Faultless) :
    Reports Faultless (release buffer) before :=
  .bind (reports_claim faultless) fun _ _ faultless => reports_move faultless

theorem reports_lease
    {tier : Tier}
    (faultless : before.Faultless) :
    Reports Faultless (lease buffer tier) before := by
  unfold lease
  split
  · exact nofun
  · have touches : Reports Faultless (modify (·.touch buffer)) before := faultless
    refine touches.bind fun _ touched faultless => ?_
    refine .bind (reports_find faultless) fun found middle faultless => ?_
    dsimp only
    split
    · split
      · exact nofun
      · exact .bind (reports_move faultless) fun _ _ faultless => faultless
    · exact faultless

section

variable
    {body : Action α β}

/-- An action under a lease, in any store in which it may run. -/
theorem reports_withLease
    {tier : Tier}
    (valid : before.Valid)
    (faultless : before.Faultless)
    (run : ∀ middle, Frame ∅ ∅ before middle → middle.OnTier buffer tier →
      (middle.pin buffer).Faultless → Reports Faultless body (middle.pin buffer)) :
    Reports Faultless (withLease buffer tier body) before := by
  refine .bind_ends (reports_lease faultless) (ends_lease valid) fun _ after faultless => ?_
  rintro ⟨middle, frame, onTier, rfl⟩
  exact reports_followedBy (run middle frame onTier faultless) fun _ faultless => faultless.unpin

theorem reports_withLeases
    {buffers : List BufferId}
    (valid : before.Valid)
    (faultless : before.Faultless)
    (run : ∀ inside, Leased buffers before inside → inside.Faultless →
      Reports Faultless body inside) :
    Reports Faultless (withLeases buffers body) before := by
  have inOrder : ∀ {buffers : List BufferId} {before : Store α}, before.Valid → before.Faultless →
      (∀ inside, Leased buffers before inside → inside.Faultless → Reports Faultless body inside) →
      Reports Faultless (withLeasesInOrder buffers body) before := by
    intro buffers
    induction buffers with
    | nil => exact fun valid faultless run => run _ (.refl valid) faultless
    | cons buffer buffers step =>
      intro before valid faultless run
      refine reports_withLease valid faultless fun middle frame onTier faultless => ?_
      have live : ∃ held, middle.claim? buffer = some held := by
        obtain ⟨contents, stored, -⟩ := onTier
        exact exists_claim stored
      obtain ⟨held, claimed⟩ := live
      exact step (frame_pin frame.valid).valid faultless fun inside leased faultless =>
        run inside (leased.cons frame onTier claimed) faultless
  have perm := List.mergeSort_perm buffers fun left right => left.index ≤ right.index
  exact inOrder valid faultless fun inside leased faultless =>
    run inside (leased.perm perm) faultless

end

theorem reports_read
    (valid : before.Valid)
    (faultless : before.Faultless) :
    Reports Faultless (read buffer) before := by
  refine reports_withLease valid faultless fun middle frame onTier faultless => ?_
  refine .bind (reports_find faultless) fun found after faultless => ?_
  split
  · exact faultless
  · exact faultless

theorem reports_update
    {change : (size : Nat) → Vector α size → Vector α size}
    (faultless : before.Faultless) :
    Reports Faultless (update buffer change) before := by
  refine .bind (reports_claim faultless) fun _ _ faultless => ?_
  refine .bind (reports_moveToHost faultless) fun _ _ faultless => ?_
  refine .bind (.bind (reports_find faultless) fun found after faultless => ?_)
    fun values _ faultless => ?_
  · split
    · exact faultless
    · exact faultless
  · exact faultless.replace

/-! ## Launches -/

/-- What the blocks of buffers hold is what the buffers read as. -/
theorem readings_of_views
    {sources : List BufferId}
    {inputs : List Block}
    {views : List (Array α)}
    (read : List.Forall₂ (fun buffer block => before.contents? buffer = some (.device block))
      sources inputs)
    (viewed : before.accelerator.pool.Views inputs views) :
    List.Forall₂ (fun buffer values => before.reading? buffer = some values) sources views := by
  induction read generalizing views with
  | nil =>
    cases viewed
    exact .nil
  | cons first _ step =>
    cases viewed with
    | cons here rest => exact .cons ((reading?_of_device first).trans here) (step rest)

/-- A launch whose kernel computes all rows. -/
theorem reports_launch
    {length : Nat}
    {sources : List BufferId}
    {inputs outputs : List Block}
    {kernel : Kernel α ω}
    (faultless : before.Faultless)
    (read : List.Forall₂ (fun buffer block => before.contents? buffer = some (.device block))
      sources inputs)
    (computes : ∀ views,
      List.Forall₂ (fun buffer values => before.reading? buffer = some values) sources views →
      ∃ rows, kernel.rows views.toArray (if outputs.isEmpty then 0 else length) = .ok rows) :
    Reports Faultless (perform (Accelerator.launch length inputs outputs kernel)) before := by
  refine reports_perform faultless fun cause failed => ?_
  obtain ⟨views, viewed, stopped⟩ := Pool.rows_of_launch_eq_fault (map_eq_error_iff.1 failed)
  obtain ⟨rows, ran⟩ := computes views (readings_of_views read viewed)
  rw [ran] at stopped
  cases stopped

end Store

end Elementwise
