import Std.Data.TreeMap.Lemmas

/-!
# Tables with distinct keys

A table is a list of entries whose keys are pairwise distinct.  Each operation
comes with the lemma that says what a look-up finds afterwards; nothing else
about an operation is needed by its users.

Tables that have an entry for each node of a graph are search trees, for which
the same lemmas hold.
-/

namespace Elementwise

/-- A finite map, as a list of entries with distinct keys. -/
structure Table (κ ν : Type) where
  entries : List (κ × ν)
  keys_nodup : (entries.map Prod.fst).Nodup

namespace Table

variable {κ ν : Type} [DecidableEq κ]

/-- The table without entries. -/
def empty : Table κ ν :=
  ⟨[], List.nodup_nil⟩

instance : Inhabited (Table κ ν) := ⟨empty⟩

/-- The value stored under a key. -/
def get? (table : Table κ ν) (key : κ) : Option ν :=
  (table.entries.find? (·.1 = key)).map Prod.snd

/-- Whether something is stored under a key. -/
def contains (table : Table κ ν) (key : κ) : Bool :=
  (table.get? key).isSome

/-- The stored values, in no order that matters. -/
def values (table : Table κ ν) : List ν :=
  table.entries.map Prod.snd

/-- The number of entries. -/
def size (table : Table κ ν) : Nat :=
  table.entries.length

/-- The table without the entry under a key. -/
def erase (table : Table κ ν) (key : κ) : Table κ ν where
  entries := table.entries.filter (·.1 ≠ key)
  keys_nodup := table.keys_nodup.sublist (List.filter_sublist.map Prod.fst)

/-- The table with a value stored under a key, in place of any before. -/
def insert (table : Table κ ν) (key : κ) (value : ν) : Table κ ν where
  entries := (key, value) :: (table.erase key).entries
  keys_nodup := by
    refine List.nodup_cons.2 ⟨?_, (table.erase key).keys_nodup⟩
    simp [erase]

/-- The table with the value under a key changed, if there is one. -/
def modify (table : Table κ ν) (key : κ) (change : ν → ν) : Table κ ν where
  entries :=
    table.entries.map fun entry =>
      if entry.1 = key then (entry.1, change entry.2) else entry
  keys_nodup := by
    have same :
        (fun entry : κ × ν =>
          (if entry.1 = key then (entry.1, change entry.2) else entry).1) =
        Prod.fst := by
      funext entry
      split <;> rfl
    simpa [Function.comp_def, same] using table.keys_nodup

theorem get?_eq_some_iff
    {table : Table κ ν}
    {key : κ}
    {value : ν} :
    table.get? key = some value ↔ (key, value) ∈ table.entries := by
  obtain ⟨entries, distinct⟩ := table
  simp only [get?]
  induction entries with
  | nil => simp
  | cons head tail step =>
    obtain ⟨headKey, headValue⟩ := head
    simp only [List.map_cons, List.nodup_cons] at distinct
    by_cases same : headKey = key
    · subst same
      have absent : (headKey, value) ∉ tail := fun member =>
        distinct.1 (List.mem_map_of_mem (f := Prod.fst) member)
      simp [absent, eq_comm]
    · have other : ¬ key = headKey := fun equal => same equal.symm
      simpa [same, other] using step distinct.2

@[simp]
theorem get?_empty (key : κ) : (empty : Table κ ν).get? key = none := rfl

@[simp]
theorem get?_erase
    (table : Table κ ν)
    (key other : κ) :
    (table.erase key).get? other =
      if key = other then none else table.get? other := by
  by_cases same : key = other
  · simp [get?, erase, same]
  · simp only [same, if_false]
    refine Option.ext fun value => ?_
    have kept : ¬ other = key := fun equal => same equal.symm
    simp [get?_eq_some_iff, erase, kept]

@[simp]
theorem get?_insert
    (table : Table κ ν)
    (key other : κ)
    (value : ν) :
    (table.insert key value).get? other =
      if key = other then some value else table.get? other := by
  by_cases same : key = other
  · simp [get?, insert, same]
  · have rest := get?_erase table key other
    simp only [same, if_false] at rest ⊢
    rw [← rest]
    simp [get?, insert, same]

@[simp]
theorem get?_modify
    (table : Table κ ν)
    (key other : κ)
    (change : ν → ν) :
    (table.modify key change).get? other =
      if key = other then (table.get? other).map change else table.get? other := by
  obtain ⟨entries, distinct⟩ := table
  simp only [get?, modify]
  clear distinct
  induction entries with
  | nil => simp
  | cons head tail step =>
    obtain ⟨headKey, headValue⟩ := head
    have keyKept :
        (if headKey = key then (headKey, change headValue)
          else (headKey, headValue)).1 = headKey := by
      split <;> rfl
    simp only [List.map_cons, List.find?_cons, keyKept]
    by_cases found : headKey = other
    · by_cases same : key = other
      · simp [found, same]
      · have : ¬ other = key := fun equal => same equal.symm
        simp [found, same, this]
    · simpa only [found, decide_false] using step

theorem contains_iff_mem
    {table : Table κ ν}
    {key : κ} :
    table.contains key ↔ key ∈ table.entries.map Prod.fst := by
  simp [contains, get?, List.find?_isSome]

end Table

/-! ## Search trees -/

namespace Sorted

variable
    {κ ν : Type}
    [Ord κ]
    [Std.TransOrd κ]
    [Std.LawfulEqOrd κ]
    [DecidableEq κ]

theorem getElem?_insert
    (table : Std.TreeMap κ ν)
    (key other : κ)
    (value : ν) :
    (table.insert key value)[other]? = if key = other then some value else table[other]? := by
  simp only [Std.TreeMap.getElem?_insert, Std.LawfulEqOrd.compare_eq_iff_eq]

theorem getElem?_erase
    (table : Std.TreeMap κ ν)
    (key other : κ) :
    (table.erase key)[other]? = if key = other then none else table[other]? := by
  simp only [Std.TreeMap.getElem?_erase, Std.LawfulEqOrd.compare_eq_iff_eq]

end Sorted

end Elementwise
