import Mathlib
import Elementwise.Device.Fleet
import Elementwise.Proofs.Device.Accounting
import Elementwise.Proofs.Device.Launch

/-!
# What accelerators side by side have to do with each other

An accelerator recognises a block by its handle and never looks at the
accelerator that the block came from.  Handles are small counters, so a block of one
accelerator may well have a handle that is live on another, which then takes it for
its own.  Where that does not happen the accelerators are isolated from each other:
a foreign block is refused, and each accelerator uses what its own blocks take up.
-/

namespace Elementwise

variable {α ω : Type}

theorem Reply.done_ne_block (block : Block) : (done : Reply α) ≠ .block block :=
  nofun

theorem Reply.values_ne_block
    {values : Array α}
    (block : Block) :
    Reply.values values ≠ .block block :=
  nofun

namespace Pool

variable {pool : Pool α}

theorem contents_eq_error_iff
    {block : Block}
    {error : DeviceError} :
    pool.contents block = .error error ↔
      pool.blocks.get? block.handle = none ∧ error = .invalidBlock block.handle := by
  unfold contents
  split
  next values found => simp [found]
  next dead =>
    rw [dead]
    simp [eq_comm]

/-! ## What a pool answers -/

/-- Why a pool refuses a call for the blocks that it is given. -/
inductive Refuses (pool : Pool α) : Call α ω → DeviceError → Prop
  | dead
      {call : Call α ω}
      {block : Block}
      (given : block ∈ call.blocks)
      (gone : pool.blocks.get? block.handle = none) :
      Refuses pool call (.invalidBlock block.handle)
  | short
      {length : Nat}
      {inputs outputs : List Block}
      {kernel : Kernel α ω}
      {output : Block}
      {values : Array α}
      (given : output ∈ outputs)
      (live : pool.blocks.get? output.handle = some values)
      (tooShort : values.size < length) :
      Refuses pool (.launch length inputs outputs kernel) (.lengthMismatch length values.size)

theorem refuses_of_checkOutput
    {length : Nat}
    {inputs outputs : List Block}
    {kernel : Kernel α ω}
    {output : Block}
    {error : DeviceError}
    (given : output ∈ outputs)
    (failed : pool.checkOutput length output = .error error) :
    pool.Refuses (.launch length inputs outputs kernel) error := by
  rcases bind_eq_error_iff.1 failed with unread | ⟨values, read, stopped⟩
  · obtain ⟨gone, rfl⟩ := contents_eq_error_iff.1 unread
    exact .dead (List.mem_append_left _ given) gone
  · split at stopped
    next tooShort =>
      cases stopped
      exact .short given (contents_eq_ok_iff.1 read) tooShort
    next => cases stopped

/-- Values are not copied from or to a block that is not live. -/
theorem copy_of_dead
    {source target block : Block}
    (given : block ∈ [source, target])
    (gone : pool.blocks.get? block.handle = none) :
    ∃ error, pool.Refuses (.copy source target : Call α ω) error ∧
      pool.copy source target = .error error := by
  cases read : pool.contents source with
  | error reason =>
    obtain ⟨missing, rfl⟩ := contents_eq_error_iff.1 read
    exact ⟨_, .dead List.mem_cons_self missing, bind_eq_error_iff.2 (.inl read)⟩
  | ok values =>
    -- the source is live, so the block in question is the target
    have unread : pool.contents block = .error (.invalidBlock block.handle) :=
      contents_eq_error_iff.2 ⟨gone, rfl⟩
    have target_eq : block = target := by
      rcases List.mem_cons.1 given with rfl | later
      · rw [unread] at read
        cases read
      · exact List.mem_singleton.1 later
    subst target_eq
    exact ⟨_, .dead given gone,
      bind_eq_error_iff.2 (.inr ⟨values, read, bind_eq_error_iff.2 (.inl unread)⟩)⟩

variable [Arithmetic α]

/-- Nothing is launched on a block that is not live. -/
theorem launch_of_dead
    {length : Nat}
    {inputs outputs : List Block}
    {kernel : Kernel α ω}
    {block : Block}
    (given : block ∈ outputs ++ inputs)
    (gone : pool.blocks.get? block.handle = none) :
    ∃ error, pool.Refuses (.launch length inputs outputs kernel) error ∧
      pool.launch length inputs outputs kernel = .error error := by
  cases checked : outputs.forM (pool.checkOutput length) with
  | error reason =>
    obtain ⟨output, among, failed⟩ := exists_of_forM_eq_error checked
    exact ⟨_, refuses_of_checkOutput among failed, bind_eq_error_iff.2 (.inl checked)⟩
  | ok passed =>
    cases read : inputs.mapM pool.contents with
    | error reason =>
      obtain ⟨input, among, failed⟩ := exists_of_mapM_eq_error read
      obtain ⟨missing, rfl⟩ := contents_eq_error_iff.1 failed
      exact ⟨_, .dead (List.mem_append_right _ among) missing,
        bind_eq_error_iff.2 (.inr ⟨passed, checked, bind_eq_error_iff.2 (.inl read)⟩)⟩
    | ok views =>
      -- with all outputs and all inputs live there is no block left that could be dead
      exfalso
      rcases List.mem_append.1 given with output | input
      · obtain ⟨values, live, -⟩ :=
          checkOutput_eq_ok_iff.1 (forM_eq_ok_iff.1 checked block output)
        rw [gone] at live
        cases live
      · obtain ⟨values, -, live⟩ := exists_of_forall₂ (mapM_eq_ok_iff.1 read) block input
        rw [contents_eq_error_iff.2 ⟨gone, rfl⟩] at live
        cases live

/-- Every call but a return is refused for a block that is not live, and has no effect. -/
theorem serve_of_dead
    {call : Call α ω}
    {block : Block}
    (given : block ∈ call.blocks)
    (gone : pool.blocks.get? block.handle = none)
    (noReturn : ∀ block, call ≠ .free block) :
    ∃ error, pool.Refuses call error ∧ pool.serve call = (.error error, pool) := by
  have unread : pool.contents block = .error (.invalidBlock block.handle) :=
    contents_eq_error_iff.2 ⟨gone, rfl⟩
  have refused : pool.Refuses call (.invalidBlock block.handle) := .dead given gone
  cases call with
  | allocate length => cases given
  | free block => exact absurd rfl (noReturn block)
  | upload target values =>
    obtain rfl := List.mem_singleton.1 given
    refine ⟨_, refused, ?_⟩
    rw [serve, upload, unread]
    rfl
  | download source length =>
    obtain rfl := List.mem_singleton.1 given
    refine ⟨_, refused, ?_⟩
    rw [serve, download, unread]
    rfl
  | fill target value =>
    obtain rfl := List.mem_singleton.1 given
    refine ⟨_, refused, ?_⟩
    rw [serve, fill, unread]
    rfl
  | copy source target =>
    obtain ⟨error, refused, stopped⟩ := copy_of_dead given gone
    refine ⟨error, refused, ?_⟩
    rw [serve, stopped]
    rfl
  | launch length inputs outputs kernel =>
    obtain ⟨error, refused, stopped⟩ := launch_of_dead given gone
    refine ⟨error, refused, ?_⟩
    rw [serve, stopped]
    rfl

/-- A block that is not live is given back without effect. -/
theorem serve_free_of_dead
    {block : Block}
    (gone : pool.blocks.get? block.handle = none) :
    pool.serve (.free block : Call α ω) = (.ok .done, pool) := by
  have absent : ¬ pool.blocks.contains block.handle = true := by
    rw [Table.contains, gone]
    exact Bool.false_ne_true
  rw [serve, takeBack, if_neg absent]

/-- What a pool has done in answer to a call. -/
inductive Served (pool : Pool α) : Call α ω → Except DeviceError (Reply α) × Pool α → Prop
  | allocated
      {length : Nat}
      {block : Block}
      {after : Pool α}
      (done : pool.allocate length = .ok (block, after)) :
      Served pool (.allocate length) (.ok (.block block), after)
  | returned
      {block : Block}
      {reply : Except DeviceError (Reply α)} :
      Served pool (.free block) (reply, pool.free block)
  | rewritten
      {call : Call α ω}
      {reply : Except DeviceError (Reply α)}
      {after : Pool α}
      (noReturn : ∀ block, call ≠ .free block)
      (noBlock : ∀ block, reply ≠ .ok (.block block))
      (rewrites : Rewrites pool after)
      (keeps : Keeps (fun handle => ∃ block ∈ call.targets, block.handle = handle) pool after) :
      Served pool call (reply, after)

/-- A call that is refused or rewrites blocks under the handles of its targets. -/
theorem served_orUnchanged
    {call : Call α ω}
    {attempt : Except DeviceError (Reply α × Pool α)}
    (noReturn : ∀ block, call ≠ .free block)
    (effect : ∀ reply after, attempt = .ok (reply, after) →
      (∀ block, reply ≠ .block block) ∧ Rewrites pool after ∧
        Keeps (fun handle => ∃ block ∈ call.targets, block.handle = handle) pool after) :
    pool.Served call (pool.orUnchanged attempt) := by
  cases attempt with
  | error error =>
    exact .rewritten noReturn nofun (.refl pool) ((Keeps.refl pool).mono fun _ => False.elim)
  | ok answer =>
    obtain ⟨reply, after⟩ := answer
    obtain ⟨noBlock, rewrites, keeps⟩ := effect reply after rfl
    refine .rewritten noReturn (fun block same => ?_) rewrites keeps
    exact noBlock block (Except.ok.inj same)

theorem served (named : pool.Named) (call : Call α ω) : pool.Served call (pool.serve call) := by
  cases call with
  | allocate length =>
    cases asked : pool.allocate length with
    | error error =>
      have refused : pool.Served (.allocate length : Call α ω)
          (pool.orUnchanged (.error error)) :=
        served_orUnchanged (fun _ same => by cases same) fun _ _ done => by cases done
      rw [serve, asked]
      exact refused
    | ok answer =>
      rw [serve, asked]
      exact .allocated asked
  | free block =>
    rw [serve]
    split
    next after taken =>
      have same : after = pool.free block := by rw [free, taken]
      rw [same]
      exact .returned
    next reason after taken =>
      have same : after = pool.free block := by rw [free, taken]
      rw [same]
      exact .returned
  | upload block values =>
    apply served_orUnchanged (fun _ same => by cases same)
    intro reply after done
    obtain ⟨written, done, same⟩ := map_eq_ok_iff.1 done
    cases same
    refine ⟨Reply.done_ne_block, rewrites_upload done,
      (upload_eq_ok named done).1.mono ?_⟩
    rintro _ rfl
    exact ⟨block, List.mem_cons_self, rfl⟩
  | download block length =>
    apply served_orUnchanged (fun _ same => by cases same)
    intro reply after done
    obtain ⟨⟨values, read⟩, done, same⟩ := map_eq_ok_iff.1 done
    cases same
    obtain ⟨-, -, counters, rfl⟩ := download_eq_ok done
    exact ⟨Reply.values_ne_block, rewrites_download done,
      (keeps_counters pool counters).mono fun _ => False.elim⟩
  | fill block value =>
    apply served_orUnchanged (fun _ same => by cases same)
    intro reply after done
    obtain ⟨written, done, same⟩ := map_eq_ok_iff.1 done
    cases same
    obtain ⟨-, -, keeps, -⟩ := fill_eq_ok named done
    refine ⟨Reply.done_ne_block, rewrites_fill done, keeps.mono ?_⟩
    rintro _ rfl
    exact ⟨block, List.mem_cons_self, rfl⟩
  | copy source target =>
    apply served_orUnchanged (fun _ same => by cases same)
    intro reply after done
    obtain ⟨written, done, same⟩ := map_eq_ok_iff.1 done
    cases same
    obtain ⟨-, -, keeps, -⟩ := copy_eq_ok named done
    refine ⟨Reply.done_ne_block, rewrites_copy done, keeps.mono ?_⟩
    rintro _ rfl
    exact ⟨target, List.mem_cons_self, rfl⟩
  | launch length inputs outputs kernel =>
    apply served_orUnchanged (fun _ same => by cases same)
    intro reply after done
    obtain ⟨written, done, same⟩ := map_eq_ok_iff.1 done
    cases same
    obtain ⟨-, -, -, -, -, keeps, -⟩ := launch_eq_ok named done
    exact ⟨Reply.done_ne_block, rewrites_launch done, keeps.mono fun _ written => written⟩

theorem capacity_allocate
    {length : Nat}
    {block : Block}
    {after : Pool α}
    (done : pool.allocate length = .ok (block, after)) :
    after.capacity = pool.capacity := by
  unfold allocate at done
  split at done
  · cases done
  · cases done
    rfl

omit [Arithmetic α] in
@[simp]
theorem capacity_free (pool : Pool α) (block : Block) :
    (pool.free block).capacity = pool.capacity := by
  unfold free takeBack
  split
  · split <;> rfl
  · rfl

/-! ## The ledger of one accelerator -/

/--
Among the blocks that a pool handed out, the outstanding ones are the live ones, each with as many
elements as it says, and together they are what is used.
-/
structure Ledger (pool : Pool α) (given held : List Block) : Prop where
  counted : pool.Counted
  used : pool.used = (held.map Block.length).sum
  named : ∀ block ∈ given, block.handle < pool.nextHandle
  unique : ∀ block ∈ given, ∀ other ∈ given, block.handle = other.handle → block = other
  distinct : held.Nodup
  live : ∀ block, block ∈ held ↔
    block ∈ given ∧ ∃ values, pool.blocks.get? block.handle = some values
  size : ∀ block ∈ held, ∀ values,
    pool.blocks.get? block.handle = some values → values.size = block.length

variable {given held : List Block}

omit [Arithmetic α] in
theorem ledger_create
    (capacity : Nat)
    (id : DeviceId)
    (unsupported : List OpCode) :
    (create capacity id unsupported : Pool α).Ledger [] [] where
  counted := counted_create ..
  used := rfl
  named := nofun
  unique := nofun
  distinct := .nil
  live block := by simp
  size := nofun

omit [Arithmetic α] in
/-- The ledger stays in order while blocks are read and written. -/
theorem Ledger.rewrites
    {after : Pool α}
    (ledger : pool.Ledger given held)
    (rewrites : Rewrites pool after) :
    after.Ledger given held where
  counted := ledger.counted.rewrites rewrites
  used := rewrites.used.trans ledger.used
  named block member := by
    rw [rewrites.nextHandle]
    exact ledger.named block member
  unique := ledger.unique
  distinct := ledger.distinct
  live block := by
    rw [ledger.live, ← Option.isSome_iff_exists, ← Option.isSome_iff_exists, rewrites.isSome]
  size block member values found := by
    have sizes := rewrites.sizes block.handle
    rw [found] at sizes
    obtain ⟨old, was, same⟩ := Option.map_eq_some_iff.1 sizes.symm
    rw [← same]
    exact ledger.size block member old was

/-- A new block is entered. -/
theorem Ledger.allocate
    {length : Nat}
    {block : Block}
    {after : Pool α}
    (ledger : pool.Ledger given held)
    (done : pool.allocate length = .ok (block, after)) :
    after.Ledger (block :: given) (block :: held) := by
  have counted := ledger.counted.allocate done
  unfold Pool.allocate at done
  split at done
  · cases done
  cases done
  -- the handles in the ledger are older than the new one, and so unlike it
  have older : ∀ other ∈ given, ¬ pool.nextHandle = other.handle :=
    fun other member => Nat.ne_of_gt (ledger.named other member)
  have others : ∀ other ∈ given,
      (pool.blocks.insert pool.nextHandle (zeros α length)).get? other.handle =
        pool.blocks.get? other.handle := by
    intro other member
    rw [Table.get?_insert, if_neg (older other member)]
  constructor
  · exact counted
  · show pool.used + length = _
    rw [List.map_cons, List.sum_cons, ledger.used, Nat.add_comm]
  · intro other member
    rcases List.mem_cons.1 member with rfl | before
    · exact Nat.lt_succ_self _
    · exact Nat.lt_succ_of_lt (ledger.named other before)
  · intro one first two second same
    rcases List.mem_cons.1 first with rfl | first <;>
      rcases List.mem_cons.1 second with rfl | second
    · rfl
    · exact absurd same (older two second)
    · exact absurd same.symm (older one first)
    · exact ledger.unique one first two second same
  · apply List.nodup_cons.2 ⟨_, ledger.distinct⟩
    intro member
    exact older _ ((ledger.live _).1 member).1 rfl
  · intro other
    rw [List.mem_cons, List.mem_cons, ledger.live]
    constructor
    · rintro (rfl | ⟨member, live⟩)
      · exact ⟨.inl rfl, zeros α length, by simp⟩
      · exact ⟨.inr member, by rwa [others other member]⟩
    · rintro ⟨rfl | member, live⟩
      · exact .inl rfl
      · exact .inr ⟨member, by rwa [others other member] at live⟩
  · intro other member values found
    rcases List.mem_cons.1 member with rfl | before
    · rw [Table.get?_insert, if_pos rfl] at found
      cases found
      exact size_zeros ..
    · rw [others other ((ledger.live other).1 before).1] at found
      exact ledger.size other before values found

omit [Arithmetic α] in
/-- A block of the pool's own is struck off, whether it is still live or not. -/
theorem Ledger.free
    {block : Block}
    (ledger : pool.Ledger given held)
    (member : block ∈ given) :
    (pool.free block).Ledger given (held.erase block) := by
  by_cases outstanding : block ∈ held
  · obtain ⟨-, values, found⟩ := (ledger.live block).1 outstanding
    have size := ledger.size block outstanding values found
    obtain ⟨counted, used⟩ := ledger.counted.free found size
    have sum := List.sum_map_erase Block.length outstanding
    constructor
    · exact counted
    · have before := ledger.used
      omega
    · intro other given
      rw [nextHandle_free]
      exact ledger.named other given
    · exact ledger.unique
    · exact ledger.distinct.erase block
    · intro other
      rw [ledger.distinct.mem_erase_iff, ledger.live, get?_free]
      by_cases same : block.handle = other.handle
      · rw [if_pos same]
        constructor
        · rintro ⟨different, other_given, -⟩
          exact absurd (ledger.unique block member other other_given same).symm different
        · rintro ⟨-, values, none⟩
          cases none
      · rw [if_neg same]
        have different : other ≠ block := fun equal => same (equal ▸ rfl)
        exact and_iff_right different
    · intro other remaining values found
      rw [get?_free] at found
      split at found
      · cases found
      · exact ledger.size other (List.mem_of_mem_erase remaining) values found
  · have gone : pool.blocks.get? block.handle = none := by
      apply Option.eq_none_iff_forall_ne_some.2
      intro values found
      exact outstanding ((ledger.live block).2 ⟨member, values, found⟩)
    rw [free_of_dead gone, List.erase_of_not_mem outstanding]
    exact ledger

end Pool

namespace Fleet

variable
    [Arithmetic α]
    {fleet : Fleet α}
    {capacity : DeviceId → Nat}
    {device : DeviceId}

/-! ## Calls and the states they lead to -/

/-- Every block that a call is given was handed out by some accelerator. -/
def Knows (fleet : Fleet α) (call : Call α ω) : Prop :=
  ∀ block ∈ call.blocks, block ∈ fleet.issued

/-- An accelerator takes a block of another one for its own. -/
def Mistakes (fleet : Fleet α) (device : DeviceId) (block : Block) : Prop :=
  block.device ≠ device ∧ ((fleet.pools device).blocks.get? block.handle).isSome

/-- The states after calls in which no block was given back to an accelerator that mistakes it. -/
inductive Reached
    (capacity : DeviceId → Nat)
    (unsupported : DeviceId → List OpCode) : Fleet α → Prop
  | start : Reached capacity unsupported (create capacity unsupported)
  | step
      {ω : Type}
      {fleet : Fleet α}
      {device : DeviceId}
      {call : Call α ω}
      (reached : Reached capacity unsupported fleet)
      (known : fleet.Knows call)
      (returned : ∀ block, call = .free block → ¬ fleet.Mistakes device block) :
      Reached capacity unsupported (fleet.step device call).2

/-! ## The ledger of all accelerators -/

/-- The accelerators are what they were made to be, and the ledger of each is in order. -/
structure InOrder (fleet : Fleet α) (capacity : DeviceId → Nat) : Prop where
  id : ∀ device, (fleet.pools device).id = device
  capacity : ∀ device, (fleet.pools device).capacity = capacity device
  ledger : ∀ device, (fleet.pools device).Ledger (fleet.given device) (fleet.held device)

theorem inOrder_create
    (capacity : DeviceId → Nat)
    (unsupported : DeviceId → List OpCode) :
    (create capacity unsupported : Fleet α).InOrder capacity where
  id _ := rfl
  capacity _ := rfl
  ledger _ := Pool.ledger_create ..

omit [Arithmetic α] in
/-- What happens at one accelerator concerns no other. -/
theorem InOrder.update
    {after : Fleet α}
    (order : fleet.InOrder capacity)
    (others : ∀ other, other ≠ device → after.pools other = fleet.pools other ∧
      after.given other = fleet.given other ∧ after.held other = fleet.held other)
    (id : (after.pools device).id = device)
    (fits : (after.pools device).capacity = capacity device)
    (ledger : (after.pools device).Ledger (after.given device) (after.held device)) :
    after.InOrder capacity := by
  constructor
  · intro other
    by_cases here : other = device
    · rwa [here]
    · rw [(others other here).1]
      exact order.id other
  · intro other
    by_cases here : other = device
    · rwa [here]
    · rw [(others other here).1]
      exact order.capacity other
  · intro other
    by_cases here : other = device
    · rwa [here]
    · obtain ⟨samePool, sameGiven, sameHeld⟩ := others other here
      rw [samePool, sameGiven, sameHeld]
      exact order.ledger other

omit [Arithmetic α] in
/-- Replies to calls that neither return a block nor hand one out are not entered. -/
theorem record_eq_self
    {call : Call α ω}
    {reply : Except DeviceError (Reply α)}
    (noReturn : ∀ block, call ≠ .free block)
    (noBlock : ∀ block, reply ≠ .ok (.block block)) :
    fleet.record device call reply = fleet := by
  unfold record
  split
  · exact absurd rfl (noReturn _)
  · split
    · exact absurd rfl (noBlock _)
    · rfl

omit [Arithmetic α] in
@[simp]
theorem pools_record
    (call : Call α ω)
    (reply : Except DeviceError (Reply α)) :
    (fleet.record device call reply).pools = fleet.pools := by
  unfold record
  split
  · split <;> rfl
  · split <;> rfl

theorem InOrder.allocate
    {length : Nat}
    {block : Block}
    {after : Pool α}
    (order : fleet.InOrder capacity)
    (done : (fleet.pools device).allocate length = .ok (block, after)) :
    InOrder { fleet.setPool device after with
      issued := block :: fleet.issued
      outstanding := block :: fleet.outstanding } capacity := by
  have ledger := (order.ledger device).allocate done
  obtain ⟨rfl, kept, -, -⟩ := Pool.allocate_eq_ok (order.ledger device).counted.named done
  have made := Pool.capacity_allocate done
  have own := order.id device
  apply order.update
  · intro other elsewhere
    have foreign : ¬ (fleet.pools device).id = other := own.trans_ne elsewhere.symm
    refine ⟨pools_setPool_of_ne elsewhere, ?_, ?_⟩
    · simp [given, foreign]
    · simp [held, foreign]
  · show (pools (setPool ..) device).id = device
    rw [pools_setPool, kept.id]
    exact own
  · show (pools (setPool ..) device).capacity = capacity device
    rw [pools_setPool, made]
    exact order.capacity device
  · show Pool.Ledger (pools (setPool ..) device) _ _
    simpa [given, held, own] using ledger

omit [Arithmetic α] in
theorem InOrder.free
    {block : Block}
    (order : fleet.InOrder capacity)
    (issued : block ∈ fleet.issued)
    (own : block.device = device) :
    InOrder { fleet.setPool device ((fleet.pools device).free block) with
      outstanding := fleet.outstanding.erase block } capacity := by
  have member : block ∈ fleet.given device := by simp [given, issued, own]
  apply order.update
  · intro other elsewhere
    have foreign : block ∉ fleet.held other := by
      simp [held, own.trans_ne elsewhere.symm]
    refine ⟨pools_setPool_of_ne elsewhere, rfl, ?_⟩
    rw [held, ← List.erase_filter, ← held, List.erase_of_not_mem foreign]
  · show (pools (setPool ..) device).id = device
    rw [pools_setPool, Pool.id_free]
    exact order.id device
  · show (pools (setPool ..) device).capacity = capacity device
    rw [pools_setPool, Pool.capacity_free]
    exact order.capacity device
  · show Pool.Ledger (pools (setPool ..) device) (fleet.given device) _
    rw [pools_setPool, held, ← List.erase_filter]
    exact (order.ledger device).free member

omit [Arithmetic α] in
theorem InOrder.rewrites
    {after : Pool α}
    (order : fleet.InOrder capacity)
    (rewrites : Pool.Rewrites (fleet.pools device) after) :
    (fleet.setPool device after).InOrder capacity := by
  apply order.update
  · intro other elsewhere
    exact ⟨pools_setPool_of_ne elsewhere, rfl, rfl⟩
  · rw [pools_setPool, rewrites.id]
    exact order.id device
  · rw [pools_setPool, rewrites.capacity]
    exact order.capacity device
  · rw [pools_setPool]
    exact (order.ledger device).rewrites rewrites

/-- A foreign block that is not mistaken for another is given back without effect. -/
theorem step_free_of_foreign
    {block : Block}
    (foreign : block.device ≠ device)
    (told : ¬ fleet.Mistakes device block) :
    fleet.step device (.free block : Call α ω) = (.ok .done, fleet) := by
  have gone : (fleet.pools device).blocks.get? block.handle = none := by
    rw [← Option.not_isSome_iff_eq_none]
    exact fun live => told ⟨foreign, live⟩
  rw [step, Pool.serve_free_of_dead gone]
  simp [record, foreign]

/-- One call keeps the ledger in order, unless it returns a block that is mistaken for another. -/
theorem inOrder_step
    {call : Call α ω}
    (order : fleet.InOrder capacity)
    (known : fleet.Knows call)
    (returned : ∀ block, call = .free block → ¬ fleet.Mistakes device block) :
    (fleet.step device call).2.InOrder capacity := by
  have served := Pool.served (order.ledger device).counted.named call
  rw [step]
  generalize outcome : (fleet.pools device).serve call = answer at served ⊢
  cases served with
  | allocated done => exact order.allocate done
  | @returned block reply =>
    by_cases own : block.device = device
    · rw [record, if_pos own]
      exact order.free (known block List.mem_cons_self) own
    · have unchanged := step_free_of_foreign own (returned block rfl) (ω := ω)
      rw [step, outcome] at unchanged
      rw [unchanged]
      exact order
  | rewritten noReturn noBlock rewrites =>
    rw [record_eq_self noReturn noBlock]
    exact order.rewrites rewrites

theorem inOrder_of_reached
    {unsupported : DeviceId → List OpCode}
    (reached : fleet.Reached capacity unsupported) :
    fleet.InOrder capacity := by
  induction reached with
  | start => exact inOrder_create capacity unsupported
  | step _ known returned order => exact inOrder_step order known returned

/-! ## Isolation -/

omit [Arithmetic α] in
/-- A block that a call was told apart for is the one outstanding block with its handle. -/
theorem InOrder.eq_of_handle
    (order : fleet.InOrder capacity)
    {block kept : Block}
    (issued : block ∈ fleet.issued)
    (told : ¬ fleet.Mistakes device block)
    (outstanding : kept ∈ fleet.outstanding)
    (here : kept.device = device)
    (same : block.handle = kept.handle) :
    block = kept := by
  have held : kept ∈ fleet.held device := by simp [held, outstanding, here]
  obtain ⟨kept_given, values, found⟩ := ((order.ledger device).live kept).1 held
  have own : block.device = device := by
    apply Decidable.byContradiction
    intro foreign
    refine told ⟨foreign, ?_⟩
    rw [same, found, Option.isSome_some]
  have given : block ∈ fleet.given device := by simp [given, issued, own]
  exact (order.ledger device).unique block given kept kept_given same

/-- What an accelerator has of its blocks changes only for targets of a call that are its own. -/
theorem InOrder.contents?_step
    {call : Call α ω}
    (order : fleet.InOrder capacity)
    (known : fleet.Knows call)
    (told : ∀ block ∈ call.blocks, ¬ fleet.Mistakes device block)
    {kept : Block}
    (outstanding : kept ∈ fleet.outstanding)
    (spared : kept.device = device → kept ∉ call.targets) :
    (fleet.step device call).2.contents? kept = fleet.contents? kept := by
  rw [contents?, contents?, step, pools_record]
  by_cases here : kept.device = device
  · have others : ∀ block ∈ call.targets, block.handle ≠ kept.handle := by
      intro block target same
      have given := Call.mem_blocks_of_mem_targets target
      have equal := order.eq_of_handle (known block given) (told block given) outstanding here same
      exact spared here (equal ▸ target)
    have held : kept ∈ fleet.held device := by simp [held, outstanding, here]
    obtain ⟨-, values, found⟩ := ((order.ledger device).live kept).1 held
    have named := (order.ledger device).counted.named
    have served := Pool.served named call
    rw [here, pools_setPool, found]
    generalize (fleet.pools device).serve call = answer at served ⊢
    cases served with
    | allocated done =>
      obtain ⟨-, keeps, -, -⟩ := Pool.allocate_eq_ok named done
      obtain ⟨left, live, -, same⟩ := keeps.live kept.handle values found
      rw [live, same not_false]
    | @returned block reply =>
      rw [Pool.get?_free, if_neg (others block List.mem_cons_self), found]
    | rewritten noReturn noBlock rewrites keeps =>
      obtain ⟨left, live, -, same⟩ := keeps.live kept.handle values found
      have untouched : ¬ ∃ block ∈ call.targets, block.handle = kept.handle := by
        rintro ⟨block, target, equal⟩
        exact others block target equal
      rw [live, same untouched]
  · rw [pools_setPool_of_ne here]

/-- A call other than a return is refused for a foreign block that is not mistaken for another. -/
theorem step_of_foreign
    {call : Call α ω}
    {block : Block}
    (given : block ∈ call.blocks)
    (foreign : block.device ≠ device)
    (told : ¬ fleet.Mistakes device block)
    (noReturn : ∀ block, call ≠ .free block) :
    ∃ error, (fleet.pools device).Refuses call error ∧
      fleet.step device call = (.error error, fleet) := by
  have gone : (fleet.pools device).blocks.get? block.handle = none := by
    rw [← Option.not_isSome_iff_eq_none]
    exact fun live => told ⟨foreign, live⟩
  obtain ⟨error, refuses, answer⟩ := Pool.serve_of_dead given gone noReturn
  refine ⟨error, refuses, ?_⟩
  rw [step, answer, record_eq_self noReturn (fun _ same => by cases same), setPool_pools]

/--
Accelerators are isolated from each other as long as none is given back a block of another one
whose handle is live on it.  What an accelerator uses is then what its outstanding blocks take up,
and within its capacity.  A further call with blocks that are not mistaken in this way is refused
if one of them is foreign, a return has no effect then, and no outstanding block changes but those
that are targets of the call and belong to the accelerator that is called.
-/
theorem isolated
    {unsupported : DeviceId → List OpCode}
    (reached : fleet.Reached capacity unsupported) :
    (∀ device, (fleet.pools device).used = ((fleet.held device).map Block.length).sum ∧
      (fleet.pools device).used ≤ capacity device) ∧
    ∀ (ω : Type) (device : DeviceId) (call : Call α ω), fleet.Knows call →
      (∀ block ∈ call.blocks, ¬ fleet.Mistakes device block) →
      (∀ block ∈ call.blocks, block.device ≠ device →
        (call = .free block → fleet.step device call = (.ok .done, fleet)) ∧
        ((∀ block, call ≠ .free block) → ∃ error, (fleet.pools device).Refuses call error ∧
          fleet.step device call = (.error error, fleet))) ∧
      ∀ kept ∈ fleet.outstanding, (kept.device = device → kept ∉ call.targets) →
        (fleet.step device call).2.contents? kept = fleet.contents? kept := by
  have order := inOrder_of_reached reached
  refine ⟨fun device => ⟨(order.ledger device).used, ?_⟩, fun ω device call known told => ⟨?_, ?_⟩⟩
  · rw [← order.capacity device]
    exact (order.ledger device).counted.fits
  · intro block given foreign
    constructor
    · rintro rfl
      exact step_free_of_foreign foreign (told block given)
    · exact step_of_foreign given foreign (told block given)
  · intro kept outstanding spared
    exact order.contents?_step known told outstanding spared

/-- Two blocks of one accelerator and one of another. -/
def sideBySide : Fleet Int :=
  ((((create (fun _ => 8) fun _ => []).step ⟨0⟩ (.allocate 4 : Call Int Unit)).2.step
    ⟨0⟩ (.allocate 3 : Call Int Unit)).2.step ⟨1⟩ (.allocate 2 : Call Int Unit)).2

/-- The second block of the one accelerator is none of the other, which has only one so far. -/
theorem isolated_sideBySide :
    sideBySide.Reached (fun _ => 8) (fun _ => []) ∧
    (sideBySide.pools ⟨0⟩).used = 7 ∧
    sideBySide.Knows (.upload ⟨1, 3, ⟨0⟩⟩ #[1, 2, 3] : Call Int Unit) ∧
    ¬ sideBySide.Mistakes ⟨1⟩ ⟨1, 3, ⟨0⟩⟩ ∧
    sideBySide.step ⟨1⟩ (.upload ⟨1, 3, ⟨0⟩⟩ #[1, 2, 3] : Call Int Unit) =
      (.error (.invalidBlock 1), sideBySide) ∧
    (sideBySide.step ⟨0⟩ (.upload ⟨1, 3, ⟨0⟩⟩ #[1, 2, 3] : Call Int Unit)).2.contents?
      ⟨0, 2, ⟨1⟩⟩ = some #[0, 0] := by
  have reached : sideBySide.Reached (fun _ => 8) (fun _ => []) :=
    .step (.step (.step .start nofun nofun) nofun nofun) nofun nofun
  have known : sideBySide.Knows (.upload ⟨1, 3, ⟨0⟩⟩ #[1, 2, 3] : Call Int Unit) := by
    intro block given
    obtain rfl := List.mem_singleton.1 given
    decide
  have foreign : ¬ sideBySide.Mistakes ⟨1⟩ ⟨1, 3, ⟨0⟩⟩ := fun mistaken => nomatch mistaken.2
  have own : ¬ sideBySide.Mistakes ⟨0⟩ ⟨1, 3, ⟨0⟩⟩ := fun mistaken => mistaken.1 rfl
  obtain ⟨books, isolated⟩ := isolated reached
  obtain ⟨refused, -⟩ := isolated Unit ⟨1⟩ _ known fun block given => by
    obtain rfl := List.mem_singleton.1 given
    exact foreign
  obtain ⟨-, spared⟩ := isolated Unit ⟨0⟩ _ known fun block given => by
    obtain rfl := List.mem_singleton.1 given
    exact own
  obtain ⟨error, refuses, answer⟩ :=
    (refused _ List.mem_cons_self (by decide)).2 fun block same => by cases same
  refine ⟨reached, (books ⟨0⟩).1, known, foreign, ?_, ?_⟩
  · cases refuses with
    | dead given gone =>
      obtain rfl := List.mem_singleton.1 given
      exact answer
  · exact spared ⟨0, 2, ⟨1⟩⟩ (by decide) (by decide)

end Fleet

/-! ## Mistaken blocks -/

section

variable
    [Arithmetic α]
    {rename : Block → Block}
    (same : ∀ block, (rename block).handle = block.handle)

include same

theorem Pool.writeColumns_relabel
    (rows : Array (Array α))
    (column : Nat)
    (outputs : List Block)
    (blocks : Table Nat (Array α)) :
    writeColumns rows column (outputs.map rename) blocks =
      writeColumns rows column outputs blocks := by
  induction outputs generalizing column blocks with
  | nil => rfl
  | cons output outputs step => rw [List.map_cons, writeColumns, writeColumns, same, step]

/-- Of a block that is not given back a pool sees the handle only. -/
theorem Pool.serve_relabel
    (pool : Pool α)
    {call : Call α ω}
    (noReturn : ∀ block, call ≠ .free block) :
    pool.serve (call.relabel rename) = pool.serve call := by
  have read : ∀ block, pool.contents (rename block) = pool.contents block := by
    intro block
    rw [contents, contents, same]
  cases call with
  | allocate length => rfl
  | free block => exact absurd rfl (noReturn block)
  | upload block values => simp only [Call.relabel, serve, upload, read, same]
  | download block length => simp only [Call.relabel, serve, download, read]
  | fill block value => simp only [Call.relabel, serve, fill, read, same]
  | copy source target => simp only [Call.relabel, serve, copy, read, same]
  | launch length inputs outputs kernel =>
    have checks : (outputs.map rename).forM (pool.checkOutput length) =
        outputs.forM (pool.checkOutput length) := by
      induction outputs with
      | nil => rfl
      | cons output outputs step =>
        have first : pool.checkOutput length (rename output) = pool.checkOutput length output := by
          rw [checkOutput, checkOutput, read]
        simp only [List.map_cons, List.forM_eq_forM, List.forM_cons] at step ⊢
        rw [first, step fun _ => by simp]
    have views : (inputs.map rename).mapM pool.contents = inputs.mapM pool.contents := by
      rw [List.mapM_map]
      simp only [Function.comp_def, read]
    simp only [Call.relabel, serve, launch, checks, views, List.isEmpty_map,
      writeColumns_relabel same]

/--
A block is mistaken for the one with the same handle: exchanging one for the other makes no
difference to any call but a return.
-/
theorem Fleet.step_relabel
    (fleet : Fleet α)
    (device : DeviceId)
    {call : Call α ω}
    (noReturn : ∀ block, call ≠ .free block) :
    fleet.step device (call.relabel rename) = fleet.step device call := by
  rw [step, step, Pool.serve_relabel same _ noReturn]
  cases call with
  | free block => exact absurd rfl (noReturn block)
  | _ => rfl

end

namespace Fleet

/-- A block of either of two accelerators, both with the first handle. -/
def crossed : Fleet Int :=
  (((create (fun _ => 8) fun _ => []).step ⟨0⟩ (.allocate 4 : Call Int Unit)).2.step
    ⟨1⟩ (.allocate 2 : Call Int Unit)).2

/--
An accelerator that is given the block of another one overwrites its own block of the same handle,
and gives that block up for it: half of what the block takes up is then no longer accounted for.
-/
theorem foreign_block_mistaken :
    crossed.Reached (fun _ => 8) (fun _ => []) ∧
    crossed.Knows (.fill ⟨0, 2, ⟨1⟩⟩ 9 : Call Int Unit) ∧
    crossed.contents? ⟨0, 4, ⟨0⟩⟩ = some #[0, 0, 0, 0] ∧
    ∃ filled returned,
      crossed.step ⟨0⟩ (.fill ⟨0, 2, ⟨1⟩⟩ 9 : Call Int Unit) = (.ok .done, filled) ∧
      filled.contents? ⟨0, 4, ⟨0⟩⟩ = some #[9, 9, 9, 9] ∧
      filled.step ⟨0⟩ (.free ⟨0, 2, ⟨1⟩⟩ : Call Int Unit) = (.ok .done, returned) ∧
      returned.held ⟨0⟩ = [⟨0, 4, ⟨0⟩⟩] ∧
      (returned.pools ⟨0⟩).used = 2 ∧
      returned.contents? ⟨0, 4, ⟨0⟩⟩ = none := by
  have known : crossed.Knows (.fill ⟨0, 2, ⟨1⟩⟩ 9 : Call Int Unit) := by
    intro block given
    obtain rfl := List.mem_singleton.1 given
    decide
  refine ⟨.step (.step .start nofun nofun) nofun nofun, known, rfl, _, _, rfl, ?_, rfl, rfl, rfl,
    rfl⟩
  decide +kernel

end Fleet

end Elementwise
