import Elementwise.Proofs.Table
import Elementwise.Proofs.Device.Pool

/-!
# The books of an accelerator

The books of a pool are right if `used` is the number of elements in its live
blocks, no more than the capacity, and if the blocks allocated and not yet
taken back are the live ones.  Calls that read or write blocks leave the books
alone, an allocation adds a block to them, and taking a block back removes it,
provided that the block says truly how long it is.

The identity of an accelerator, its capacity, its programs and the schedule of
its failures never change.
-/

namespace Elementwise

variable {α : Type}

/-- What never changes about an accelerator. -/
structure Make where
  id : DeviceId
  capacity : Nat
  unsupported : List OpCode
  faults : Method → Nat → Option DeviceError

/-- What never changes about an accelerator. -/
def Accelerator.make (accelerator : Accelerator α) : Make where
  id := accelerator.pool.id
  capacity := accelerator.pool.capacity
  unsupported := accelerator.pool.unsupported
  faults := accelerator.faults

namespace Pool

/-- The books are right. -/
structure Counted (pool : Pool α) : Prop where
  named : pool.Named
  used : pool.used = pool.blocks.total Array.size
  fits : pool.used ≤ pool.capacity
  balance : pool.counters.allocations = pool.counters.frees + pool.blocks.size

theorem counted_create (capacity : Nat) (id : DeviceId) (unsupported : List OpCode) :
    (create capacity id unsupported : Pool α).Counted where
  named := named_create capacity id unsupported
  used := rfl
  fits := Nat.zero_le _
  balance := rfl

/-! ## Calls that leave the books alone -/

/-- At most the contents of blocks change, and not their sizes. -/
structure Rewrites (before after : Pool α) : Prop where
  id : after.id = before.id
  capacity : after.capacity = before.capacity
  unsupported : after.unsupported = before.unsupported
  used : after.used = before.used
  nextHandle : after.nextHandle = before.nextHandle
  allocations : after.counters.allocations = before.counters.allocations
  frees : after.counters.frees = before.counters.frees
  sizes : ∀ handle, (after.blocks.get? handle).map Array.size =
    (before.blocks.get? handle).map Array.size

section

variable {before after : Pool α}

theorem Rewrites.refl (pool : Pool α) : Rewrites pool pool :=
  ⟨rfl, rfl, rfl, rfl, rfl, rfl, rfl, fun _ => rfl⟩

theorem Rewrites.isSome
    (rewrites : Rewrites before after)
    (handle : Nat) :
    (after.blocks.get? handle).isSome = (before.blocks.get? handle).isSome := by
  rw [← Option.isSome_map (f := Array.size), rewrites.sizes, Option.isSome_map]

theorem Rewrites.size
    (rewrites : Rewrites before after) :
    after.blocks.size = before.blocks.size := by
  rw [Table.size_eq_total, Table.size_eq_total]
  refine Table.total_congr fun handle => ?_
  have same := rewrites.isSome handle
  cases was : before.blocks.get? handle <;> cases is : after.blocks.get? handle <;> simp_all

theorem Counted.rewrites
    (counted : before.Counted)
    (rewrites : Rewrites before after) :
    after.Counted where
  named handle values found := by
    have live : (before.blocks.get? handle).isSome = true := by
      rw [← rewrites.isSome, found, Option.isSome_some]
    obtain ⟨old, held⟩ := Option.isSome_iff_exists.1 live
    rw [rewrites.nextHandle]
    exact counted.named handle old held
  used := by
    rw [rewrites.used, counted.used]
    exact (Table.total_congr rewrites.sizes).symm
  fits := by
    rw [rewrites.used, rewrites.capacity]
    exact counted.fits
  balance := by
    rw [rewrites.allocations, rewrites.frees, rewrites.size]
    exact counted.balance

end

variable {pool after : Pool α}

/-- The values in a block are replaced by as many others. -/
theorem rewrites_modify
    {handle : Nat}
    {change : Array α → Array α}
    {counters : Counters}
    (allocations : counters.allocations = pool.counters.allocations)
    (frees : counters.frees = pool.counters.frees)
    (sizes : ∀ values, pool.blocks.get? handle = some values →
      (change values).size = values.size) :
    Rewrites pool
      { pool with blocks := pool.blocks.modify handle change, counters := counters } where
  id := rfl
  capacity := rfl
  unsupported := rfl
  used := rfl
  nextHandle := rfl
  allocations := allocations
  frees := frees
  sizes other := by
    rw [Table.get?_modify]
    split
    next same =>
      subst same
      cases found : pool.blocks.get? handle with
      | none => rfl
      | some values => exact congrArg some (sizes values found)
    · rfl

theorem rewrites_upload
    {block : Block}
    {values : Array α}
    (done : pool.upload block values = .ok after) :
    Rewrites pool after := by
  obtain ⟨current, found, done⟩ := bind_eq_ok_iff.1 done
  obtain ⟨_, fits, done⟩ := bind_eq_ok_iff.1 done
  cases done
  refine rewrites_modify rfl rfl fun old held => ?_
  rw [contents_eq_ok_iff.1 found] at held
  cases held
  exact (eq_of_checkLength fits).symm

theorem rewrites_download
    {block : Block}
    {length : Nat}
    {values : Array α}
    (done : pool.download block length = .ok (values, after)) :
    Rewrites pool after := by
  obtain ⟨current, found, done⟩ := bind_eq_ok_iff.1 done
  obtain ⟨_, fits, done⟩ := bind_eq_ok_iff.1 done
  cases done
  exact ⟨rfl, rfl, rfl, rfl, rfl, rfl, rfl, fun _ => rfl⟩

theorem rewrites_fill
    {block : Block}
    {value : α}
    (done : pool.fill block value = .ok after) :
    Rewrites pool after := by
  obtain ⟨current, found, done⟩ := bind_eq_ok_iff.1 done
  cases done
  exact rewrites_modify rfl rfl fun _ _ => Array.size_map

theorem rewrites_copy
    {source target : Block}
    (done : pool.copy source target = .ok after) :
    Rewrites pool after := by
  obtain ⟨values, found, done⟩ := bind_eq_ok_iff.1 done
  obtain ⟨current, held, done⟩ := bind_eq_ok_iff.1 done
  obtain ⟨_, fits, done⟩ := bind_eq_ok_iff.1 done
  cases done
  refine rewrites_modify rfl rfl fun old same => ?_
  rw [contents_eq_ok_iff.1 held] at same
  cases same
  exact (eq_of_checkLength fits).symm

section

variable [Arithmetic α]

theorem rewrites_launch
    {ω : Type}
    {length : Nat}
    {inputs outputs : List Block}
    {kernel : Kernel α ω}
    (done : pool.launch length inputs outputs kernel = .ok after) :
    Rewrites pool after := by
  obtain ⟨_, _, done⟩ := bind_eq_ok_iff.1 done
  obtain ⟨views, read, done⟩ := bind_eq_ok_iff.1 done
  cases ran : kernel.rows views.toArray (if outputs.isEmpty then 0 else length) with
  | error reason =>
    simp only [ran] at done
    cases done
  | ok rows =>
    simp only [ran] at done
    cases done
    refine ⟨rfl, rfl, rfl, rfl, rfl, rfl, rfl, fun handle => ?_⟩
    cases found : pool.blocks.get? handle with
    | some values =>
      obtain ⟨kept, held, size⟩ := size_get?_writeColumns rows 0 outputs pool.blocks values found
      rw [held, Option.map_some, Option.map_some, size]
    | none =>
      cases held : (writeColumns rows 0 outputs pool.blocks).get? handle with
      | none => rfl
      | some values =>
        obtain ⟨old, present⟩ := get?_writeColumns_eq_some rows 0 outputs pool.blocks held
        rw [found] at present
        cases present

/-! ## Blocks come and go -/

theorem Counted.allocate
    {length : Nat}
    {block : Block}
    (counted : pool.Counted)
    (done : pool.allocate length = .ok (block, after)) :
    after.Counted := by
  have named := (allocate_eq_ok counted.named done).2.2.1
  have fresh : pool.blocks.get? pool.nextHandle = none := by
    cases found : pool.blocks.get? pool.nextHandle with
    | none => rfl
    | some values => exact absurd (counted.named _ values found) (Nat.lt_irrefl _)
  unfold Pool.allocate at done
  split at done
  · cases done
  next room =>
    cases done
    refine ⟨named, ?_, ?_, ?_⟩
    · show pool.used + length = (pool.blocks.insert _ _).total Array.size
      rw [Table.total_insert fresh, size_zeros, counted.used, Nat.add_comm]
    · have enough : length ≤ pool.available := Nat.not_lt.1 room
      have bounded := counted.fits
      unfold available at enough
      show pool.used + length ≤ pool.capacity
      omega
    · show pool.counters.allocations + 1 = pool.counters.frees + (pool.blocks.insert _ _).size
      rw [Table.size_eq_total, Table.total_insert fresh, ← Table.size_eq_total, counted.balance]
      omega

omit [Arithmetic α] in
/-- A live block that says truly how long it is goes out of the books. -/
theorem free_eq
    {block : Block}
    {values : Array α}
    (counted : pool.Counted)
    (live : pool.blocks.get? block.handle = some values)
    (size : values.size = block.length) :
    pool.free block =
      { pool with
        blocks := pool.blocks.erase block.handle
        used := pool.used - block.length
        counters.frees := pool.counters.frees + 1 } := by
  have contained : pool.blocks.contains block.handle = true := by
    rw [Table.contains, live, Option.isSome_some]
  have enough : block.length ≤ pool.used := by
    rw [counted.used, ← size]
    exact Table.le_total live
  rw [free, takeBack, if_pos contained, if_pos enough]

omit [Arithmetic α] in
/-- A block that is not live is not taken back. -/
theorem free_of_dead
    {block : Block}
    (dead : pool.blocks.get? block.handle = none) :
    pool.free block = pool := by
  have absent : ¬ pool.blocks.contains block.handle = true := by
    rw [Table.contains, dead]
    exact Bool.false_ne_true
  rw [free, takeBack, if_neg absent]

omit [Arithmetic α] in
theorem Counted.free
    {block : Block}
    {values : Array α}
    (counted : pool.Counted)
    (live : pool.blocks.get? block.handle = some values)
    (size : values.size = block.length) :
    (pool.free block).Counted ∧ (pool.free block).used + block.length = pool.used := by
  have named := named_free counted.named block
  have sizes := Table.total_erase Array.size live
  have number := Table.total_erase (fun _ => 1) live
  rw [← Table.size_eq_total, ← Table.size_eq_total] at number
  have used := counted.used
  have bounded := counted.fits
  have balance := counted.balance
  rw [free_eq counted live size] at named ⊢
  dsimp only at *
  exact ⟨⟨named, by dsimp only; omega, by dsimp only; omega, by dsimp only; omega⟩, by omega⟩

end

end Pool

end Elementwise
