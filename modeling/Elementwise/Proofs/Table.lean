import Mathlib.Algebra.BigOperators.Group.Finset.Basic
import Elementwise.Table

/-!
# Sums over the values of a table

The keys of a table form a finite set, and a weight for each value gives the
table a total weight.  The total depends on what the look-ups find and on
nothing else, so that the order of the entries never matters.  The number of
entries is the total for the weight one.
-/

namespace Elementwise.Table

variable
    {κ ν : Type}
    [DecidableEq κ]
    {table other : Table κ ν}
    {key : κ}
    {value : ν}
    {weight : ν → Nat}

/-- The keys under which something is stored. -/
def keys (table : Table κ ν) : Finset κ :=
  (table.entries.map Prod.fst).toFinset

@[simp]
theorem mem_keys_iff : key ∈ table.keys ↔ ∃ value, table.get? key = some value := by
  rw [keys, List.mem_toFinset, ← contains_iff_mem, contains, Option.isSome_iff_exists]

theorem notMem_keys_iff : key ∉ table.keys ↔ table.get? key = none := by
  rw [mem_keys_iff, ← Option.isSome_iff_exists, Option.not_isSome_iff_eq_none]

/-- The weights of all values taken together. -/
def total (table : Table κ ν) (weight : ν → Nat) : Nat :=
  ∑ key ∈ table.keys, (table.get? key).elim 0 weight

/-- Tables in which the look-ups find values of the same weight have the same total. -/
theorem total_congr
    (same : ∀ key, (other.get? key).map weight = (table.get? key).map weight) :
    other.total weight = table.total weight := by
  have sameKeys : other.keys = table.keys := by
    ext key
    rw [mem_keys_iff, mem_keys_iff, ← Option.isSome_iff_exists, ← Option.isSome_iff_exists,
      ← Option.isSome_map (f := weight), same key, Option.isSome_map]
  rw [total, total, sameKeys]
  refine Finset.sum_congr rfl fun key _ => ?_
  have found := same key
  cases before : table.get? key <;> cases after : other.get? key <;>
    simp_all

@[simp]
theorem total_empty : (empty : Table κ ν).total weight = 0 := rfl

/-- A value under a new key adds its weight. -/
theorem total_insert (absent : table.get? key = none) :
    (table.insert key value).total weight = weight value + table.total weight := by
  have more : (table.insert key value).keys = Insert.insert key table.keys := by
    ext other
    rw [Finset.mem_insert, mem_keys_iff, mem_keys_iff, get?_insert]
    by_cases same : key = other
    · simp [same]
    · simp [same, Ne.symm same]
  rw [total, more, Finset.sum_insert (notMem_keys_iff.2 absent), get?_insert, if_pos rfl,
    Option.elim_some, total]
  refine congrArg (weight value + ·) (Finset.sum_congr rfl fun other member => ?_)
  have different : ¬ key = other := by
    rintro rfl
    exact notMem_keys_iff.2 absent member
  rw [get?_insert, if_neg different]

/-- A value that is erased takes its weight away. -/
theorem total_erase (weight : ν → Nat) (present : table.get? key = some value) :
    weight value + (table.erase key).total weight = table.total weight := by
  have fewer : (table.erase key).keys = table.keys.erase key := by
    ext other
    rw [Finset.mem_erase, mem_keys_iff, mem_keys_iff, get?_erase]
    by_cases same : key = other
    · simp [same]
    · simp [same, Ne.symm same]
  rw [total, total, fewer, ← Finset.add_sum_erase table.keys _ (mem_keys_iff.2 ⟨value, present⟩),
    present, Option.elim_some]
  refine congrArg (weight value + ·) (Finset.sum_congr rfl fun other member => ?_)
  rw [get?_erase, if_neg (Ne.symm (Finset.ne_of_mem_erase member))]

/-- One value weighs no more than all of them. -/
theorem le_total (present : table.get? key = some value) :
    weight value ≤ table.total weight := by
  rw [← total_erase weight present]
  exact Nat.le_add_right ..

theorem size_eq_total : table.size = table.total fun _ => 1 := by
  have found : ∀ key ∈ table.keys, (table.get? key).elim 0 (fun _ => 1) = 1 := by
    intro key member
    obtain ⟨value, present⟩ := mem_keys_iff.1 member
    rw [present, Option.elim_some]
  rw [total, Finset.sum_congr rfl found, ← Finset.card_eq_sum_ones, keys,
    List.toFinset_card_of_nodup table.keys_nodup, List.length_map, size]

end Elementwise.Table
