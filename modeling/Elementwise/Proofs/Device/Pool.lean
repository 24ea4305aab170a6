import Mathlib.Data.List.Forall2
import Elementwise.Device.Accelerator
import Elementwise.Proofs.Action

/-!
# What the calls of an accelerator do to its memory

A call of the accelerator either fails, and then its memory is as before, or
it does what the pool does.  Every operation of the pool keeps the blocks that
it is not about and the sizes of all blocks; what it does to the blocks that
it is about is said operation by operation.
-/

namespace Elementwise

variable {α : Type}

namespace Pool

/--
What every operation but taking a block back leaves alone: the sizes of the
live blocks, and their contents except under given handles.
-/
structure Keeps (written : Nat → Prop) (before after : Pool α) : Prop where
  id : after.id = before.id
  nextHandle : before.nextHandle ≤ after.nextHandle
  live : ∀ handle values, before.blocks.get? handle = some values →
    ∃ kept, after.blocks.get? handle = some kept ∧ kept.size = values.size ∧
      (¬ written handle → kept = values)

theorem Keeps.refl (pool : Pool α) : Keeps (fun _ => False) pool pool where
  id := rfl
  nextHandle := Nat.le_refl _
  live _ values found := ⟨values, found, rfl, fun _ => rfl⟩

theorem Keeps.mono
    {written more : Nat → Prop}
    {before after : Pool α}
    (keeps : Keeps written before after)
    (within : ∀ handle, written handle → more handle) :
    Keeps more before after where
  id := keeps.id
  nextHandle := keeps.nextHandle
  live handle values found := by
    obtain ⟨kept, held, size, same⟩ := keeps.live handle values found
    exact ⟨kept, held, size, fun unwritten => same fun written => unwritten (within _ written)⟩

/-- Every live block has a handle that was given out before. -/
def Named (pool : Pool α) : Prop :=
  ∀ handle values, pool.blocks.get? handle = some values → handle < pool.nextHandle

theorem named_create (capacity : Nat) (id : DeviceId) (unsupported : List OpCode) :
    (create capacity id unsupported : Pool α).Named :=
  nofun

theorem contents_eq_ok_iff
    {pool : Pool α}
    {block : Block}
    {values : Array α} :
    pool.contents block = .ok values ↔ pool.blocks.get? block.handle = some values := by
  unfold contents
  split <;> simp_all

theorem eq_of_checkLength
    {expected actual : Nat}
    {answer : Unit}
    (fits : checkLength expected actual = .ok answer) :
    expected = actual := by
  unfold checkLength at fits
  split at fits
  · assumption
  · cases fits

/-- Changing the block under a live handle keeps all others. -/
theorem keeps_modify
    {pool : Pool α}
    {handle : Nat}
    {change : Array α → Array α}
    {counters : Counters}
    (sizes : ∀ values, pool.blocks.get? handle = some values →
      (change values).size = values.size) :
    Keeps (· = handle) pool
      { pool with blocks := pool.blocks.modify handle change, counters := counters } where
  id := rfl
  nextHandle := Nat.le_refl _
  live other values found := by
    by_cases same : handle = other
    · subst same
      refine ⟨change values, by simp [found], sizes values found, fun different => ?_⟩
      exact absurd rfl different
    · exact ⟨values, by simp [same, found], rfl, fun _ => rfl⟩

theorem named_modify
    {pool : Pool α}
    (named : pool.Named)
    {handle : Nat}
    {change : Array α → Array α}
    {counters : Counters} :
    Named { pool with blocks := pool.blocks.modify handle change, counters := counters } := by
  intro other values found
  simp only [Table.get?_modify] at found
  split at found
  · obtain ⟨old, held, -⟩ := Option.map_eq_some_iff.1 found
    exact named other old held
  · exact named other values found

/-- A block that is taken back is gone, and no other is. -/
theorem get?_free (pool : Pool α) (block : Block) (handle : Nat) :
    (pool.free block).blocks.get? handle =
      if block.handle = handle then none else pool.blocks.get? handle := by
  unfold free takeBack
  split
  · split <;> simp
  next absent =>
    split
    next same =>
      rw [← same]
      simpa [Table.contains] using absent
    · rfl

@[simp]
theorem id_free (pool : Pool α) (block : Block) : (pool.free block).id = pool.id := by
  unfold free takeBack
  split
  · split <;> rfl
  · rfl

@[simp]
theorem nextHandle_free (pool : Pool α) (block : Block) :
    (pool.free block).nextHandle = pool.nextHandle := by
  unfold free takeBack
  split
  · split <;> rfl
  · rfl

theorem named_free
    {pool : Pool α}
    (named : pool.Named)
    (block : Block) :
    (pool.free block).Named := by
  intro handle values found
  rw [get?_free] at found
  split at found
  · cases found
  · rw [nextHandle_free]
    exact named handle values found

theorem upload_eq_ok
    {pool after : Pool α}
    {block : Block}
    {values : Array α}
    (named : pool.Named)
    (done : pool.upload block values = .ok after) :
    Keeps (· = block.handle) pool after ∧ after.Named ∧
      after.blocks.get? block.handle = some values := by
  obtain ⟨current, found, done⟩ := bind_eq_ok_iff.1 done
  obtain ⟨_, fits, done⟩ := bind_eq_ok_iff.1 done
  cases done
  rw [contents_eq_ok_iff] at found
  have sameSize := eq_of_checkLength fits
  refine ⟨keeps_modify fun old held => ?_, named_modify named, by simp [found]⟩
  rw [found] at held
  cases held
  exact sameSize.symm

theorem download_eq_ok
    {pool after : Pool α}
    {block : Block}
    {length : Nat}
    {values : Array α}
    (done : pool.download block length = .ok (values, after)) :
    pool.blocks.get? block.handle = some values ∧ values.size = length ∧
      ∃ counters, after = { pool with counters := counters } := by
  obtain ⟨current, found, done⟩ := bind_eq_ok_iff.1 done
  obtain ⟨_, fits, done⟩ := bind_eq_ok_iff.1 done
  cases done
  rw [contents_eq_ok_iff] at found
  exact ⟨found, eq_of_checkLength fits, _, rfl⟩

theorem keeps_counters
    (pool : Pool α)
    (counters : Counters) :
    Keeps (fun _ => False) pool { pool with counters := counters } :=
  ⟨rfl, Nat.le_refl _, fun _ values found => ⟨values, found, rfl, fun _ => rfl⟩⟩

theorem fill_eq_ok
    {pool after : Pool α}
    {block : Block}
    {value : α}
    (named : pool.Named)
    (done : pool.fill block value = .ok after) :
    ∃ values, pool.blocks.get? block.handle = some values ∧
      Keeps (· = block.handle) pool after ∧ after.Named ∧
      after.blocks.get? block.handle = some (Array.replicate values.size value) := by
  obtain ⟨current, found, done⟩ := bind_eq_ok_iff.1 done
  cases done
  rw [contents_eq_ok_iff] at found
  refine ⟨current, found, keeps_modify fun _ _ => by simp, named_modify named, ?_⟩
  simp [found, Array.map_const']

theorem copy_eq_ok
    {pool after : Pool α}
    {source target : Block}
    (named : pool.Named)
    (done : pool.copy source target = .ok after) :
    ∃ values, pool.blocks.get? source.handle = some values ∧
      Keeps (· = target.handle) pool after ∧ after.Named ∧
      after.blocks.get? target.handle = some values := by
  obtain ⟨values, found, done⟩ := bind_eq_ok_iff.1 done
  obtain ⟨current, held, done⟩ := bind_eq_ok_iff.1 done
  obtain ⟨_, fits, done⟩ := bind_eq_ok_iff.1 done
  cases done
  rw [contents_eq_ok_iff] at found held
  have sameSize := eq_of_checkLength fits
  refine ⟨values, found, keeps_modify fun old same => ?_, named_modify named, by simp [held]⟩
  rw [held] at same
  cases same
  exact sameSize.symm

variable [Arithmetic α]

/-- A new block holds zeros under a handle that was not in use. -/
theorem allocate_eq_ok
    {pool after : Pool α}
    {length : Nat}
    {block : Block}
    (named : pool.Named)
    (done : pool.allocate length = .ok (block, after)) :
    block = ⟨pool.nextHandle, length, pool.id⟩ ∧
      Keeps (fun _ => False) pool after ∧ after.Named ∧
      after.blocks.get? block.handle = some (zeros α length) := by
  unfold allocate at done
  split at done
  · cases done
  cases done
  refine ⟨rfl, ⟨rfl, Nat.le_succ _, ?_⟩, ?_, by simp⟩
  · intro handle values found
    have different : ¬ pool.nextHandle = handle := Nat.ne_of_gt (named handle values found)
    exact ⟨values, by simp [different, found], rfl, fun _ => rfl⟩
  · intro handle values found
    simp only [Table.get?_insert] at found
    split at found
    next same =>
      rw [← same]
      exact Nat.lt_succ_self _
    · exact Nat.lt_succ_of_lt (named handle values found)

/-! ## Launches -/

/-- The blocks under other handles are not written. -/
theorem get?_writeColumns_of_not_mem
    (rows : Array (Array α))
    (column : Nat)
    (outputs : List Block)
    (blocks : Table Nat (Array α))
    {handle : Nat}
    (absent : ∀ output ∈ outputs, output.handle ≠ handle) :
    (writeColumns rows column outputs blocks).get? handle = blocks.get? handle := by
  induction outputs generalizing column blocks with
  | nil => rfl
  | cons output outputs step =>
    rw [writeColumns, step _ _ fun other member => absent other (List.mem_cons_of_mem _ member)]
    simp [absent output List.mem_cons_self]

/-- Among outputs with different handles, each gets its own column. -/
theorem get?_writeColumns
    (rows : Array (Array α))
    (column : Nat)
    {outputs : List Block}
    (blocks : Table Nat (Array α))
    (distinct : (outputs.map Block.handle).Nodup)
    {position : Nat}
    {output : Block}
    (found : outputs[position]? = some output) :
    (writeColumns rows column outputs blocks).get? output.handle =
      (blocks.get? output.handle).map (writeColumn rows (column + position)) := by
  induction outputs generalizing column blocks position with
  | nil => simp at found
  | cons first outputs step =>
    rw [List.map_cons, List.nodup_cons] at distinct
    rw [writeColumns]
    cases position with
    | zero =>
      obtain rfl : first = output := by simpa using found
      have absent : ∀ other ∈ outputs, other.handle ≠ first.handle := by
        intro other member same
        exact distinct.1 (List.mem_map.2 ⟨other, member, same⟩)
      rw [get?_writeColumns_of_not_mem _ _ _ _ absent]
      simp
    | succ position =>
      have later : outputs[position]? = some output := by simpa using found
      have different : ¬ first.handle = output.handle := by
        intro same
        exact distinct.1 (List.mem_map.2 ⟨output, List.mem_of_getElem? later, same.symm⟩)
      rw [step (column + 1) _ distinct.2 later, Table.get?_modify, if_neg different,
        Nat.add_assoc, Nat.add_comm 1]

theorem size_get?_writeColumns
    (rows : Array (Array α))
    (column : Nat)
    (outputs : List Block)
    (blocks : Table Nat (Array α))
    {handle : Nat}
    (values : Array α)
    (found : blocks.get? handle = some values) :
    ∃ kept, (writeColumns rows column outputs blocks).get? handle = some kept ∧
      kept.size = values.size := by
  induction outputs generalizing column blocks values with
  | nil => exact ⟨values, found, rfl⟩
  | cons output outputs step =>
    rw [writeColumns]
    by_cases same : output.handle = handle
    · obtain ⟨kept, held, size⟩ := step (column + 1)
        (blocks.modify output.handle (writeColumn rows column))
        (writeColumn rows column values) (by simp [same, found])
      exact ⟨kept, held, size.trans (size_writeColumn ..)⟩
    · exact step (column + 1) _ values (by simp [same, found])

theorem get?_writeColumns_eq_some
    (rows : Array (Array α))
    (column : Nat)
    (outputs : List Block)
    (blocks : Table Nat (Array α))
    {handle : Nat}
    {values : Array α}
    (found : (writeColumns rows column outputs blocks).get? handle = some values) :
    ∃ old, blocks.get? handle = some old := by
  induction outputs generalizing column blocks with
  | nil => exact ⟨values, found⟩
  | cons output outputs step =>
    obtain ⟨middle, held⟩ := step (column + 1) _ found
    rw [Table.get?_modify] at held
    split at held
    · obtain ⟨old, present, -⟩ := Option.map_eq_some_iff.1 held
      exact ⟨old, present⟩
    · exact ⟨middle, held⟩

/-- What a launch that succeeds has done. -/
theorem launch_eq_ok
    {ω : Type}
    {pool after : Pool α}
    {length : Nat}
    {inputs outputs : List Block}
    {kernel : Kernel α ω}
    (named : pool.Named)
    (done : pool.launch length inputs outputs kernel = .ok after) :
    ∃ views rows,
      List.Forall₂ (fun input values => pool.blocks.get? input.handle = some values)
        inputs views ∧
      kernel.rows views.toArray (if outputs.isEmpty then 0 else length) = .ok rows ∧
      after.blocks = writeColumns rows 0 outputs pool.blocks ∧
      Keeps (fun handle => ∃ output ∈ outputs, output.handle = handle) pool after ∧
      after.Named := by
  obtain ⟨_, _, done⟩ := bind_eq_ok_iff.1 done
  obtain ⟨views, read, done⟩ := bind_eq_ok_iff.1 done
  cases ran : kernel.rows views.toArray (if outputs.isEmpty then 0 else length) with
  | error reason =>
    simp only [ran] at done
    cases done
  | ok rows =>
    simp only [ran] at done
    cases done
    have inputsRead := (mapM_eq_ok_iff.1 read).imp fun _ _ got => contents_eq_ok_iff.1 got
    refine ⟨views, rows, inputsRead, ran, rfl, ⟨rfl, Nat.le_refl _, ?_⟩, ?_⟩
    · intro handle values found
      obtain ⟨kept, held, size⟩ := size_get?_writeColumns rows 0 outputs pool.blocks values found
      refine ⟨kept, held, size, fun absent => ?_⟩
      have different : ∀ output ∈ outputs, output.handle ≠ handle :=
        fun output member same => absent ⟨output, member, same⟩
      have untouched := get?_writeColumns_of_not_mem rows 0 outputs pool.blocks different
      rw [untouched, found] at held
      exact (Option.some.inj held).symm
    · intro handle values found
      obtain ⟨old, held⟩ := get?_writeColumns_eq_some rows 0 outputs pool.blocks found
      exact named handle old held

end Pool

end Elementwise
