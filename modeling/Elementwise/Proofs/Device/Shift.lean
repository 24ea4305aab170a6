import Elementwise.Device.Accelerator

/-!
# Accelerators that have given out different handles

An accelerator that was used before and has its memory back differs from a new
one in the handles that it gives out next.  One pool is ahead of another by a
number of handles if both hold the same blocks under handles that differ by
this number, and agree in everything else that a call depends on.  Every call on
live blocks has the same outcome in both and keeps one as far ahead.
-/

namespace Elementwise

variable
    {α β γ : Type}
    {handles : Nat}

/-- The block under the handle that lies further on by a number. -/
def Block.shift (handles : Nat) (block : Block) : Block :=
  { block with handle := block.handle + handles }

namespace Pool

variable
    {left right : Pool α}
    {block : Block}
    {values : Array α}

/-- The second pool holds the blocks of the first under handles that lie further on. -/
structure Ahead (handles : Nat) (left right : Pool α) : Prop where
  id : right.id = left.id
  capacity : right.capacity = left.capacity
  unsupported : right.unsupported = left.unsupported
  used : right.used = left.used
  nextHandle : right.nextHandle = left.nextHandle + handles
  blocks : ∀ handle, right.blocks.get? (handle + handles) = left.blocks.get? handle

/-- Two calls are refused for the same reason, or answered alike. -/
def SameOutcome (handles : Nat) (change : β → γ) :
    Except DeviceError (β × Pool α) → Except DeviceError (γ × Pool α) → Prop
  | .ok (answer, pool), .ok (other, poolOther) =>
      other = change answer ∧ Ahead handles pool poolOther
  | .error reason, .error other => other = reason
  | _, _ => False

/-- A block holds something. -/
def Live (pool : Pool α) (block : Block) : Prop :=
  ∃ values, pool.blocks.get? block.handle = some values

theorem Ahead.contents
    (ahead : Ahead handles left right)
    (live : left.Live block) :
    ∃ values, left.contents block = .ok values ∧
      right.contents (block.shift handles) = .ok values := by
  obtain ⟨values, found⟩ := live
  refine ⟨values, ?_, ?_⟩
  · unfold Pool.contents
    rw [found]
  · unfold Pool.contents
    rw [show (block.shift handles).handle = block.handle + handles from rfl, ahead.blocks, found]

/-- A change of a block in both. -/
theorem Ahead.modify
    (ahead : Ahead handles left right)
    (handle : Nat)
    (change : Array α → Array α)
    (counters counterOthers : Counters) :
    Ahead handles
      { left with blocks := left.blocks.modify handle change, counters := counters }
      { right with
        blocks := right.blocks.modify (handle + handles) change, counters := counterOthers } where
  id := ahead.id
  capacity := ahead.capacity
  unsupported := ahead.unsupported
  used := ahead.used
  nextHandle := ahead.nextHandle
  blocks other := by
    simp only [Table.get?_modify, ahead.blocks, Nat.add_right_cancel_iff]

/-- What is counted of the calls does not matter. -/
theorem Ahead.counters
    (ahead : Ahead handles left right)
    (counters counterOthers : Counters) :
    Ahead handles { left with counters := counters } { right with counters := counterOthers } :=
  ⟨ahead.id, ahead.capacity, ahead.unsupported, ahead.used, ahead.nextHandle, ahead.blocks⟩

theorem Ahead.available (ahead : Ahead handles left right) : right.available = left.available := by
  unfold Pool.available
  rw [ahead.capacity, ahead.used]

/-! ## Calls -/

theorem Ahead.allocate
    [Arithmetic α]
    (ahead : Ahead handles left right)
    (length : Nat) :
    SameOutcome handles (Block.shift handles) (left.allocate length) (right.allocate length) := by
  unfold Pool.allocate
  rw [ahead.available]
  split
  · exact rfl
  · refine ⟨?_, ahead.id, ahead.capacity, ahead.unsupported, ?_, ?_, fun handle => ?_⟩
    · rw [ahead.nextHandle, ahead.id]
      rfl
    · exact congrArg (· + length) ahead.used
    · show right.nextHandle + 1 = left.nextHandle + 1 + handles
      rw [ahead.nextHandle, Nat.add_right_comm]
    · simp only [Table.get?_insert, ahead.nextHandle, ahead.blocks, Nat.add_right_cancel_iff]

theorem Ahead.upload
    (ahead : Ahead handles left right)
    (live : left.Live block)
    (values : Array α) :
    SameOutcome handles (fun answer => answer) ((((), ·)) <$> left.upload block values)
      ((((), ·)) <$> right.upload (block.shift handles) values) := by
  obtain ⟨current, here, there⟩ := ahead.contents live
  unfold Pool.upload checkLength
  rw [here, there]
  by_cases fits : current.size = values.size
  · simp only [bind, Except.bind, fits, if_true]
    exact ⟨rfl, ahead.modify ..⟩
  · simp only [bind, Except.bind, fits, if_false]
    exact rfl

theorem Ahead.download
    (ahead : Ahead handles left right)
    (live : left.Live block)
    (length : Nat) :
    SameOutcome handles (fun answer => answer) (left.download block length)
      (right.download (block.shift handles) length) := by
  obtain ⟨current, here, there⟩ := ahead.contents live
  unfold Pool.download checkLength
  rw [here, there]
  by_cases fits : current.size = length
  · simp only [bind, Except.bind, fits, if_true]
    exact ⟨rfl, ahead.counters ..⟩
  · simp only [bind, Except.bind, fits, if_false]
    exact rfl

theorem Ahead.fill
    (ahead : Ahead handles left right)
    (live : left.Live block)
    (value : α) :
    SameOutcome handles (fun answer => answer) ((((), ·)) <$> left.fill block value)
      ((((), ·)) <$> right.fill (block.shift handles) value) := by
  obtain ⟨current, here, there⟩ := ahead.contents live
  unfold Pool.fill
  rw [here, there]
  exact ⟨rfl, ahead.modify ..⟩

theorem Ahead.copy
    {source target : Block}
    (ahead : Ahead handles left right)
    (liveSource : left.Live source)
    (liveTarget : left.Live target) :
    SameOutcome handles (fun answer => answer) ((((), ·)) <$> left.copy source target)
      ((((), ·)) <$> right.copy (source.shift handles) (target.shift handles)) := by
  obtain ⟨values, here, there⟩ := ahead.contents liveSource
  obtain ⟨current, hereTarget, thereTarget⟩ := ahead.contents liveTarget
  unfold Pool.copy checkLength
  rw [here, there, hereTarget, thereTarget]
  by_cases fits : current.size = values.size
  · simp only [bind, Except.bind, fits, if_true]
    exact ⟨rfl, ahead.modify ..⟩
  · simp only [bind, Except.bind, fits, if_false]
    exact rfl

theorem Ahead.checkOutputs
    (ahead : Ahead handles left right)
    (length : Nat)
    {outputs : List Block}
    (live : ∀ block ∈ outputs, left.Live block) :
    (outputs.map (Block.shift handles)).forM (right.checkOutput length) =
      outputs.forM (left.checkOutput length) := by
  induction outputs with
  | nil => rfl
  | cons output outputs step =>
    obtain ⟨current, here, there⟩ := ahead.contents (live output List.mem_cons_self)
    have rest := step fun block member => live block (List.mem_cons_of_mem _ member)
    simp only [List.forM_eq_forM, List.map_cons, List.forM_cons] at rest ⊢
    rw [rest]
    unfold Pool.checkOutput
    rw [here, there]

theorem Ahead.views
    (ahead : Ahead handles left right)
    {inputs : List Block}
    (live : ∀ block ∈ inputs, left.Live block) :
    (inputs.map (Block.shift handles)).mapM right.contents = inputs.mapM left.contents := by
  induction inputs with
  | nil => rfl
  | cons input inputs step =>
    obtain ⟨values, here, there⟩ := ahead.contents (live input List.mem_cons_self)
    rw [List.map_cons, List.mapM_cons, List.mapM_cons, here, there,
      step fun block member => live block (List.mem_cons_of_mem _ member)]

theorem get?_writeColumns_shift
    [Arithmetic α]
    {rows : Array (Array α)}
    (outputs : List Block)
    (column : Nat)
    {blocks blocksOther : Table Nat (Array α)}
    (same : ∀ handle, blocksOther.get? (handle + handles) = blocks.get? handle)
    (handle : Nat) :
    (writeColumns rows column (outputs.map (Block.shift handles)) blocksOther).get?
        (handle + handles) =
      (writeColumns rows column outputs blocks).get? handle := by
  induction outputs generalizing column blocks blocksOther with
  | nil => exact same handle
  | cons output outputs step =>
    refine step (column + 1) fun other => ?_
    simp only [Block.shift, Table.get?_modify, same, Nat.add_right_cancel_iff]

theorem Ahead.launch
    [Arithmetic α]
    {ω : Type}
    (ahead : Ahead handles left right)
    (length : Nat)
    {inputs outputs : List Block}
    (kernel : Kernel α ω)
    (liveInputs : ∀ block ∈ inputs, left.Live block)
    (liveOutputs : ∀ block ∈ outputs, left.Live block) :
    SameOutcome handles (fun answer => answer)
      ((((), ·)) <$> left.launch length inputs outputs kernel)
      ((((), ·)) <$> right.launch length (inputs.map (Block.shift handles))
        (outputs.map (Block.shift handles)) kernel) := by
  unfold Pool.launch
  rw [ahead.checkOutputs length liveOutputs, ahead.views liveInputs, List.isEmpty_map]
  cases outputs.forM (left.checkOutput length) with
  | error reason => exact rfl
  | ok _ =>
    cases inputs.mapM left.contents with
    | error reason => exact rfl
    | ok views =>
      simp only [bind, Except.bind]
      cases kernel.rows views.toArray (if outputs.isEmpty then 0 else length) with
      | error reason => exact rfl
      | ok rows =>
        exact ⟨rfl, ahead.id, ahead.capacity, ahead.unsupported, ahead.used, ahead.nextHandle,
          get?_writeColumns_shift outputs 0 ahead.blocks⟩

theorem Ahead.free
    (ahead : Ahead handles left right)
    (block : Block) :
    Ahead handles (left.free block) (right.free (block.shift handles)) := by
  have live : right.blocks.contains (block.shift handles).handle =
      left.blocks.contains block.handle :=
    congrArg Option.isSome (ahead.blocks block.handle)
  have erased : ∀ handle, (right.blocks.erase (block.shift handles).handle).get?
      (handle + handles) = (left.blocks.erase block.handle).get? handle := by
    intro handle
    simp only [Block.shift, Table.get?_erase, ahead.blocks, Nat.add_right_cancel_iff]
  have length : (block.shift handles).length = block.length := rfl
  unfold Pool.free takeBack
  rw [live, ahead.used, length]
  split
  · split
    · exact ⟨ahead.id, ahead.capacity, ahead.unsupported, rfl, ahead.nextHandle, erased⟩
    · exact ⟨ahead.id, ahead.capacity, ahead.unsupported, rfl, ahead.nextHandle, erased⟩
  · exact ahead

end Pool

namespace Accelerator

/--
The second accelerator holds the blocks of the first under handles that lie further on, and its
next calls fail just where those of the first do.
-/
structure Ahead (handles : Nat) (left right : Accelerator α) : Prop where
  pool : left.pool.Ahead handles right.pool
  faults : ∀ method call, right.faults method (right.calls.get method + call) =
    left.faults method (left.calls.get method + call)

variable {left right : Accelerator α}

/-- A call is counted in both, and the failures to come are the same. -/
theorem Ahead.bump
    (ahead : left.Ahead handles right)
    (method : Method)
    {pool poolOther : Pool α}
    (pools : pool.Ahead handles poolOther) :
    Ahead handles { left with calls := left.calls.bump method, pool := pool }
      { right with calls := right.calls.bump method, pool := poolOther } where
  pool := pools
  faults other call := by
    simp only [CallCounts.get_bump]
    split
    · rw [Nat.add_assoc, Nat.add_assoc]
      exact ahead.faults other (1 + call)
    · exact ahead.faults other call

theorem Ahead.free
    (ahead : left.Ahead handles right)
    (block : Block) :
    Ahead handles (left.free block) (right.free (block.shift handles)) :=
  ⟨ahead.pool.free block, ahead.faults⟩

end Accelerator

end Elementwise
