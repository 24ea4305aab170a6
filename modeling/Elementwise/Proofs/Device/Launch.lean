import Elementwise.Proofs.Device.Pool
import Elementwise.Proofs.Element.Integers

/-!
# What a launch does

A launch runs a kernel at each index below a length.  The kernel reads the
inputs as they were before, so an output may be one of them; and columns are
written from the first to the last, so among outputs with the same handle the
last one counts.

A kernel hands its workspace on from one index to the next.  What is said of
its rows holds for any workspace that an invariant allows.
-/

namespace Elementwise

/-! ## The rows of a kernel -/

namespace Kernel

variable
    {α ω : Type}
    {kernel : Kernel α ω}
    {inputs : Array (Array α)}
    {keeps : ω → Prop}
    {rows : Array (Array α)}

theorem rowsFrom_eq_ok
    (stays : ∀ index workspace row next, keeps workspace →
      kernel.row index inputs workspace = .ok (row, next) → keeps next)
    {count first : Nat}
    {done : Array (Array α)}
    {workspace : ω}
    (kept : keeps workspace)
    (ran : kernel.rowsFrom inputs count first done workspace = .ok rows) :
    rows.size = done.size + count ∧
      (∀ index, index < done.size → rows[index]? = done[index]?) ∧
      ∀ index, index < count → ∃ workspace next row, keeps workspace ∧
        kernel.row (first + index) inputs workspace = .ok (row, next) ∧
        rows[done.size + index]? = some row := by
  induction count generalizing first done workspace with
  | zero =>
    cases ran
    exact ⟨rfl, fun _ _ => rfl, fun _ inside => absurd inside (Nat.not_lt_zero _)⟩
  | succ count step =>
    obtain ⟨⟨row, next⟩, head, tail⟩ := bind_eq_ok_iff.1 ran
    obtain ⟨size, before, later⟩ := step (stays first workspace row next kept head) tail
    rw [Array.size_push] at size before later
    refine ⟨by omega, fun index inside => ?_, fun index inside => ?_⟩
    · rw [before index (Nat.lt_succ_of_lt inside), Array.getElem?_push_lt inside,
        Array.getElem?_eq_getElem inside]
    · cases index with
      | zero =>
        refine ⟨workspace, next, row, kept, head, ?_⟩
        rw [Nat.add_zero, before done.size (Nat.lt_succ_self _), Array.getElem?_push_size]
      | succ index =>
        obtain ⟨inner, after, found, holds, ran, place⟩ := later index (by omega)
        refine ⟨inner, after, found, holds, ?_, ?_⟩
        · rwa [Nat.add_assoc, Nat.add_comm 1] at ran
        · rwa [Nat.add_assoc, Nat.add_comm 1] at place

/-- There is one row for each index, from some workspace that the invariant allows. -/
theorem rows_eq_ok
    (keeps : ω → Prop)
    {length : Nat}
    (initial : keeps kernel.initial)
    (stays : ∀ index workspace row next, keeps workspace →
      kernel.row index inputs workspace = .ok (row, next) → keeps next)
    (ran : kernel.rows inputs length = .ok rows) :
    rows.size = length ∧
      ∀ index, index < length → ∃ workspace next row, keeps workspace ∧
        kernel.row index inputs workspace = .ok (row, next) ∧ rows[index]? = some row := by
  obtain ⟨size, -, each⟩ := rowsFrom_eq_ok stays initial ran
  refine ⟨by simpa using size, fun index inside => ?_⟩
  obtain ⟨workspace, next, row, kept, done, found⟩ := each index inside
  refine ⟨workspace, next, row, kept, ?_, ?_⟩
  · rwa [Nat.zero_add] at done
  · simpa using found

theorem rowsFrom_isOk
    {count first : Nat}
    {done : Array (Array α)}
    {workspace : ω}
    (kept : keeps workspace)
    (computes : ∀ index, index < first + count → ∀ workspace, keeps workspace →
      ∃ row next, kernel.row index inputs workspace = .ok (row, next) ∧ keeps next) :
    ∃ rows, kernel.rowsFrom inputs count first done workspace = .ok rows := by
  induction count generalizing first done workspace with
  | zero => exact ⟨done, rfl⟩
  | succ count step =>
    obtain ⟨row, next, head, keptNext⟩ := computes first (by omega) workspace kept
    rw [rowsFrom, head]
    exact step keptNext fun index inside => computes index (by omega)

/-- A kernel that has a row at each index has all rows. -/
theorem rows_isOk
    (keeps : ω → Prop)
    {length : Nat}
    (initial : keeps kernel.initial)
    (computes : ∀ index, index < length → ∀ workspace, keeps workspace →
      ∃ row next, kernel.row index inputs workspace = .ok (row, next) ∧ keeps next) :
    ∃ rows, kernel.rows inputs length = .ok rows :=
  rowsFrom_isOk initial fun index inside => computes index (by omega)

end Kernel

/-! ## The columns of the rows -/

namespace Pool

variable {α : Type} [Arithmetic α]

/-- A column as long as the rows replaces everything there was before. -/
theorem getElem?_writeColumn
    {rows : Array (Array α)}
    (column : Nat)
    {index : Nat}
    {row values : Array α}
    (found : rows[index]? = some row)
    (inside : index < values.size) :
    (writeColumn rows column values)[index]? = some (row.getD column Arithmetic.zero) := by
  rw [writeColumn, Array.getElem?_mapIdx, Array.getElem?_eq_getElem inside, Option.map_some,
    found]

/--
The front of an array is overwritten with a column of the rows, and what lies
behind them is as before.
-/
structure Overwritten
    (rows : Array (Array α))
    (column : Nat)
    (old new : Array α) : Prop where
  size : new.size = old.size
  front : ∀ index row, rows[index]? = some row → index < old.size →
    new[index]? = some (row.getD column Arithmetic.zero)
  behind : ∀ index, rows.size ≤ index → new[index]? = old[index]?

theorem overwritten_writeColumn (rows : Array (Array α)) (column : Nat) (values : Array α) :
    Overwritten rows column values (writeColumn rows column values) where
  size := size_writeColumn ..
  front _ _ found inside := getElem?_writeColumn column found inside
  behind index outside := by
    rw [writeColumn, Array.getElem?_mapIdx, Array.getElem?_eq_none outside, Option.map_id']

/-- An earlier column is lost under a later one. -/
theorem Overwritten.again
    {rows : Array (Array α)}
    {earlier later : Nat}
    {old middle new : Array α}
    (first : Overwritten rows earlier old middle)
    (second : Overwritten rows later middle new) :
    Overwritten rows later old new where
  size := second.size.trans first.size
  front index row found inside := second.front index row found (first.size.symm ▸ inside)
  behind index outside := (second.behind index outside).trans (first.behind index outside)

/-- The last place at which a handle stands among outputs. -/
def IsLast (outputs : List Block) (handle column : Nat) : Prop :=
  (outputs[column]?).map Block.handle = some handle ∧
    ∀ later output, column < later → outputs[later]? = some output → output.handle ≠ handle

/-- Of all columns for a block the last one stays. -/
theorem get?_writeColumns_of_mem
    (rows : Array (Array α))
    (first : Nat)
    {outputs : List Block}
    {handle : Nat}
    (member : handle ∈ outputs.map Block.handle)
    {blocks : Table Nat (Array α)}
    {old : Array α}
    (found : blocks.get? handle = some old) :
    ∃ column new, IsLast outputs handle column ∧
      (writeColumns rows first outputs blocks).get? handle = some new ∧
      Overwritten rows (first + column) old new := by
  induction outputs generalizing first blocks old with
  | nil => cases member
  | cons output outputs step =>
    rw [writeColumns]
    by_cases again : handle ∈ outputs.map Block.handle
    · -- the column of this output, if it is for the block at all, is overwritten later
      obtain ⟨middle, written, kept⟩ : ∃ middle,
          (blocks.modify output.handle (writeColumn rows first)).get? handle = some middle ∧
          ∀ column new, Overwritten rows column middle new → Overwritten rows column old new := by
        rw [Table.get?_modify, found]
        split
        · exact ⟨_, rfl, fun _ _ => (overwritten_writeColumn ..).again⟩
        · exact ⟨_, rfl, fun _ _ same => same⟩
      obtain ⟨column, new, ⟨place, last⟩, holds, overwritten⟩ := step (first + 1) again written
      refine ⟨column + 1, new, ⟨place, fun later other after => ?_⟩, holds, ?_⟩
      · cases later with
        | zero => exact absurd after (Nat.not_lt_zero _)
        | succ later => exact last later other (Nat.lt_of_succ_lt_succ after)
      · rw [Nat.add_assoc, Nat.add_comm 1] at overwritten
        exact kept _ _ overwritten
    · rcases List.mem_cons.1 member with rfl | later
      · have absent : ∀ other ∈ outputs, other.handle ≠ output.handle :=
          fun other among same => again (List.mem_map.2 ⟨other, among, same⟩)
        refine ⟨0, _, ⟨rfl, fun later other after among => ?_⟩, ?_, overwritten_writeColumn ..⟩
        · cases later with
          | zero => exact absurd after (Nat.lt_irrefl _)
          | succ later => exact absent other (List.mem_of_getElem? among)
        · rw [get?_writeColumns_of_not_mem _ _ _ _ absent, Table.get?_modify, if_pos rfl, found]
          rfl
      · exact absurd later again

/-! ## Launches -/

/-- Every output is live and long enough, and every input is live. -/
def Launchable (pool : Pool α) (length : Nat) (inputs outputs : List Block) : Prop :=
  (∀ output ∈ outputs, ∃ values,
    pool.blocks.get? output.handle = some values ∧ length ≤ values.size) ∧
  ∀ input ∈ inputs, ∃ values, pool.blocks.get? input.handle = some values

/-- What the inputs of a launch hold. -/
def Views (pool : Pool α) (inputs : List Block) (views : List (Array α)) : Prop :=
  List.Forall₂ (fun input values => pool.blocks.get? input.handle = some values) inputs views

omit [Arithmetic α] in
theorem checkOutput_eq_ok_iff
    {pool : Pool α}
    {length : Nat}
    {output : Block} :
    pool.checkOutput length output = .ok () ↔
      ∃ values, pool.blocks.get? output.handle = some values ∧ length ≤ values.size := by
  rw [checkOutput, bind_eq_ok_iff]
  refine exists_congr fun values => and_congr contents_eq_ok_iff ?_
  split
  next short => simp [short, throw, throwThe, MonadExceptOf.throw]
  next long => simp [Nat.le_of_not_lt long, pure, Except.pure]

omit [Arithmetic α] in
theorem exists_views
    {pool : Pool α}
    {inputs : List Block}
    (live : ∀ input ∈ inputs, ∃ values, pool.blocks.get? input.handle = some values) :
    ∃ views, pool.Views inputs views := by
  have each : ∀ input ∈ inputs, ∃ values, pool.contents input = .ok values :=
    fun input member => (live input member).imp fun _ => contents_eq_ok_iff.2
  obtain ⟨views, read⟩ := mapM_isOk each
  exact ⟨views, (mapM_eq_ok_iff.1 read).imp fun _ _ => contents_eq_ok_iff.1⟩

theorem launchable_of_launch
    {ω : Type}
    {pool after : Pool α}
    {length : Nat}
    {inputs outputs : List Block}
    {kernel : Kernel α ω}
    (done : pool.launch length inputs outputs kernel = .ok after) :
    pool.Launchable length inputs outputs := by
  obtain ⟨_, checked, done⟩ := bind_eq_ok_iff.1 done
  obtain ⟨views, read, -⟩ := bind_eq_ok_iff.1 done
  refine ⟨fun output member => checkOutput_eq_ok_iff.1 (forM_eq_ok_iff.1 checked output member),
    fun input member => ?_⟩
  obtain ⟨values, -, held⟩ := exists_of_forall₂ (mapM_eq_ok_iff.1 read) input member
  exact ⟨values, contents_eq_ok_iff.1 held⟩

theorem launch_of_launchable
    {ω : Type}
    {pool : Pool α}
    {length : Nat}
    {inputs outputs : List Block}
    {kernel : Kernel α ω}
    {views : List (Array α)}
    {rows : Array (Array α)}
    (launchable : pool.Launchable length inputs outputs)
    (viewed : pool.Views inputs views)
    (ran : kernel.rows views.toArray (if outputs.isEmpty then 0 else length) = .ok rows) :
    pool.launch length inputs outputs kernel = .ok { pool with
      blocks := writeColumns rows 0 outputs pool.blocks
      counters.launches := pool.counters.launches + 1 } := by
  have checked : outputs.forM (pool.checkOutput length) = .ok () :=
    forM_eq_ok_iff.2 fun output member => checkOutput_eq_ok_iff.2 (launchable.1 output member)
  have read : inputs.mapM pool.contents = .ok views :=
    mapM_eq_ok_iff.2 (viewed.imp fun _ _ => contents_eq_ok_iff.2)
  refine bind_eq_ok_iff.2 ⟨_, checked, bind_eq_ok_iff.2 ⟨_, read, ?_⟩⟩
  simp only [ran]
  rfl

/-- Nothing is launched if the kernel fails. -/
theorem launch_of_fault
    {ω : Type}
    {pool : Pool α}
    {length : Nat}
    {inputs outputs : List Block}
    {kernel : Kernel α ω}
    {views : List (Array α)}
    {reason : Fault}
    (launchable : pool.Launchable length inputs outputs)
    (viewed : pool.Views inputs views)
    (failed : kernel.rows views.toArray (if outputs.isEmpty then 0 else length) = .error reason) :
    pool.launch length inputs outputs kernel = .error (.fault reason) := by
  have checked : outputs.forM (pool.checkOutput length) = .ok () :=
    forM_eq_ok_iff.2 fun output member => checkOutput_eq_ok_iff.2 (launchable.1 output member)
  have read : inputs.mapM pool.contents = .ok views :=
    mapM_eq_ok_iff.2 (viewed.imp fun _ _ => contents_eq_ok_iff.2)
  refine bind_eq_error_iff.2 (.inr ⟨_, checked, bind_eq_error_iff.2 (.inr ⟨_, read, ?_⟩)⟩)
  simp only [failed]
  rfl

/--
What a launch leaves behind if it succeeds: the last column for each output, from the rows at
the indices below the length on the inputs as they were, and everything else as before.
-/
structure Launched
    (before : Pool α)
    (length : Nat)
    (inputs outputs : List Block)
    (row : Nat → Array (Array α) → Array α)
    (after : Pool α) : Prop where
  /-- One launch is counted, and only blocks change besides. -/
  counted : after = { before with
    blocks := after.blocks
    counters.launches := before.counters.launches + 1 }
  others : ∀ handle, handle ∉ outputs.map Block.handle →
    after.blocks.get? handle = before.blocks.get? handle
  written : ∃ views, before.Views inputs views ∧ ∀ output ∈ outputs, ∃ column old new,
    IsLast outputs output.handle column ∧
    before.blocks.get? output.handle = some old ∧
    after.blocks.get? output.handle = some new ∧
    new.size = old.size ∧
    (∀ index < length,
      new[index]? = some ((row index views.toArray).getD column Arithmetic.zero)) ∧
    ∀ index, length ≤ index → new[index]? = old[index]?

end Pool

/--
At each index below a length the row of a kernel depends on the inputs alone, whatever
workspace it is handed.
-/
def Kernel.Computes
    {α ω : Type}
    (kernel : Kernel α ω)
    (row : Nat → Array (Array α) → Array α)
    (inputs : Array (Array α))
    (length : Nat) : Prop :=
  ∀ index < length, ∀ workspace, ∃ next,
    kernel.row index inputs workspace = .ok (row index inputs, next)

/-- The rows are those that the kernel computes, though each index finds the workspace used. -/
theorem Kernel.Computes.exists_rows
    {α ω : Type}
    {kernel : Kernel α ω}
    {row : Nat → Array (Array α) → Array α}
    {inputs : Array (Array α)}
    {length count : Nat}
    (computes : kernel.Computes row inputs length)
    (within : count ≤ length) :
    ∃ rows, kernel.rows inputs count = .ok rows ∧ rows.size = count ∧
      ∀ index < count, rows[index]? = some (row index inputs) := by
  obtain ⟨rows, ran⟩ : ∃ rows, kernel.rows inputs count = .ok rows :=
    rows_isOk (fun _ => True) trivial fun index below workspace _ => by
      obtain ⟨next, computed⟩ := computes index (Nat.lt_of_lt_of_le below within) workspace
      exact ⟨_, next, computed, trivial⟩
  obtain ⟨size, each⟩ := rows_eq_ok (fun _ => True) trivial (fun _ _ _ _ _ _ => trivial) ran
  refine ⟨rows, ran, size, fun index below => ?_⟩
  obtain ⟨workspace, next, found, -, given, place⟩ := each index below
  obtain ⟨after, computed⟩ := computes index (Nat.lt_of_lt_of_le below within) workspace
  cases given.symm.trans computed
  exact place

/-- A launch whose blocks are live and long enough succeeds. -/
theorem Pool.exists_launched
    {α ω : Type}
    [Arithmetic α]
    {pool : Pool α}
    {length : Nat}
    {inputs outputs : List Block}
    {kernel : Kernel α ω}
    {row : Nat → Array (Array α) → Array α}
    (launchable : pool.Launchable length inputs outputs)
    (computes : ∀ views, pool.Views inputs views → kernel.Computes row views.toArray length) :
    ∃ after, pool.launch length inputs outputs kernel = .ok after ∧
      pool.Launched length inputs outputs row after := by
  obtain ⟨views, viewed⟩ := exists_views launchable.2
  have within : (if outputs.isEmpty then 0 else length) ≤ length := by
    split
    · exact Nat.zero_le _
    · exact Nat.le_refl _
  obtain ⟨rows, ran, size, each⟩ := (computes views viewed).exists_rows within
  refine ⟨_, launch_of_launchable launchable viewed ran, rfl, fun handle absent => ?_,
    views, viewed, fun output member => ?_⟩
  · exact get?_writeColumns_of_not_mem _ _ _ _ fun output among same =>
      absent (List.mem_map.2 ⟨output, among, same⟩)
  · obtain ⟨old, held, long⟩ := launchable.1 output member
    obtain ⟨column, new, last, written, overwritten⟩ :=
      get?_writeColumns_of_mem rows 0 (List.mem_map_of_mem member) held
    -- with an output there is a row for each index
    have some : outputs.isEmpty = false := List.isEmpty_eq_false_iff_exists_mem.2 ⟨output, member⟩
    rw [some] at size each
    rw [Nat.zero_add] at overwritten
    refine ⟨column, old, new, last, held, written, overwritten.size, fun index below => ?_,
      fun index beyond => overwritten.behind index (size ▸ beyond)⟩
    exact overwritten.front index _ (each index below) (Nat.lt_of_lt_of_le below long)

namespace Accelerator

variable
    {α ω : Type}
    [Arithmetic α]
    {accelerator : Accelerator α}
    {length : Nat}
    {inputs outputs : List Block}
    {kernel : Kernel α ω}
    {row : Nat → Array (Array α) → Array α}

/-- A launch that is not scheduled to fail goes as the pool says. -/
theorem ends_launch_of_unscheduled
    (unscheduled : accelerator.faults .launch (accelerator.calls.get .launch) = none)
    {done : Unit → Accelerator α → Prop}
    {failed : DeviceError → Accelerator α → Prop}
    (ofOk : ∀ pool, accelerator.pool.launch length inputs outputs kernel = .ok pool →
      done () { accelerator with calls := accelerator.calls.bump .launch, pool := pool })
    (ofError : ∀ reason, accelerator.pool.launch length inputs outputs kernel = .error reason →
      failed reason { accelerator with calls := accelerator.calls.bump .launch }) :
    Ends (launch length inputs outputs kernel) accelerator done failed := by
  unfold Ends launch call
  simp only [unscheduled]
  cases ran : accelerator.pool.launch length inputs outputs kernel with
  | ok pool => exact ofOk pool ran
  | error reason => exact ofError reason ran

/--
A launch that is not scheduled to fail succeeds exactly if its outputs are live and long enough
and its inputs are live.  Outputs may be inputs and may be repeated: the rows are those on the
inputs as they were, and a repeated output gets its last column.  A launch that fails leaves the
memory and its counters alone.
-/
theorem launch_exactly
    (unscheduled : accelerator.faults .launch (accelerator.calls.get .launch) = none)
    (computes : ∀ views, accelerator.pool.Views inputs views →
      kernel.Computes row views.toArray length) :
    Ends (launch length inputs outputs kernel) accelerator
      (fun _ after => accelerator.pool.Launchable length inputs outputs ∧
        accelerator.pool.Launched length inputs outputs row after.pool)
      (fun _ after => ¬ accelerator.pool.Launchable length inputs outputs ∧
        after.pool = accelerator.pool) := by
  refine ends_launch_of_unscheduled unscheduled (fun pool ran => ?_) fun reason ran => ?_
  · have launchable := Pool.launchable_of_launch ran
    obtain ⟨after, succeeds, launched⟩ := Pool.exists_launched launchable computes
    cases ran.symm.trans succeeds
    exact ⟨launchable, launched⟩
  · refine ⟨fun launchable => ?_, rfl⟩
    obtain ⟨after, succeeds, -⟩ := Pool.exists_launched launchable computes
    cases ran.symm.trans succeeds

/-- A block of three elements. -/
def triple : Block := ⟨0, 3, ⟨0⟩⟩

/-- A block of two elements. -/
def couple : Block := ⟨1, 2, ⟨0⟩⟩

/-- An accelerator with two blocks of different lengths. -/
def paired : Accelerator Int where
  pool :=
    { id := ⟨0⟩
      capacity := 8
      unsupported := []
      blocks := (Table.empty.insert 0 #[1, 2, 3]).insert 1 #[10, 20]
      used := 5
      nextHandle := 2
      counters := {} }
  faults _ _ := none
  calls := {}

/-- The sum of two inputs at an index, and its two successors. -/
def successorsAt (index : Nat) (inputs : Array (Array Int)) : Array Int :=
  let total := (inputs.getD 0 #[]).getD index 0 + (inputs.getD 1 #[]).getD index 0
  #[total, total + 1, total + 2]

/-- The successors of sums, with a workspace that counts the indices done. -/
def successors : Kernel Int Nat where
  initial := 0
  row index inputs seen := .ok (successorsAt index inputs, seen + 1)

/-- Both inputs are outputs, one of them twice and longer than the launch. -/
theorem launch_exactly_paired :
    ∃ after, launch 2 [triple, couple] [triple, couple, triple] successors paired = .ok () after ∧
      paired.pool.Launched 2 [triple, couple] [triple, couple, triple] successorsAt after.pool ∧
      after.pool.blocks.get? 0 = some #[13, 24, 3] ∧
      after.pool.blocks.get? 1 = some #[12, 23] := by
  have computes : ∀ views, paired.pool.Views [triple, couple] views →
      successors.Computes successorsAt views.toArray 2 :=
    fun _ _ _ _ seen => ⟨seen + 1, rfl⟩
  have exact : Ends (launch 2 [triple, couple] [triple, couple, triple] successors) paired _ _ :=
    launch_exactly rfl computes
  obtain ⟨after, done⟩ : ∃ after,
      launch 2 [triple, couple] [triple, couple, triple] successors paired = .ok () after :=
    ⟨_, rfl⟩
  obtain ⟨-, launched⟩ := exact.of_ok done
  cases done
  exact ⟨_, rfl, launched, rfl, rfl⟩

end Accelerator

end Elementwise
