import Mathlib.Data.Nat.Basic
import Elementwise.Reduction.Tree
import Elementwise.Proofs.Buffer.Launch

/-!
# One pass of a reduction

A pass over a list folds its runs.  The kernel of a pass does the same to the
entries along an axis, once for each place before and behind it, whatever the
source of the elements is: a source is only asked to give the element of its
index from any workspace that an invariant allows.
-/

namespace Elementwise

/-! ## Passes over lists -/

section

variable {α : Type} {combine : α → α → α} {length : Nat}

theorem runsOf_nil : runsOf length ([] : List α) = [] := by
  unfold runsOf
  simp

theorem foldPass_nil : foldPass combine length [] = [] := by
  rw [foldPass, runsOf_nil, List.filterMap_nil]

/-- The first run of a list is folded, and the rest is passed over likewise. -/
theorem foldPass_eq_cons
    (combine : α → α → α)
    (positive : 0 < length)
    {values : List α}
    (filled : values ≠ []) :
    ∃ first, foldRun? combine (values.take length) = some first ∧
      foldPass combine length values = first :: foldPass combine length (values.drop length) := by
  have run : ∃ first, foldRun? combine (values.take length) = some first := by
    cases values with
    | nil => exact absurd rfl filled
    | cons head tail =>
      obtain ⟨rest, rfl⟩ := Nat.exists_eq_add_of_lt positive
      exact ⟨_, rfl⟩
  obtain ⟨first, folded⟩ := run
  refine ⟨first, folded, ?_⟩
  by_cases whole : values.length ≤ length
  · have only : runsOf length values = [values] := by
      unfold runsOf
      rw [if_pos (Or.inl whole), if_neg (by simpa using filled)]
    rw [List.take_of_length_le whole] at folded
    rw [List.drop_of_length_le whole, foldPass_nil, foldPass, only]
    simp [folded]
  · have split : runsOf length values =
        values.take length :: runsOf length (values.drop length) := by
      rw [runsOf, if_neg]
      rintro (le | zero)
      · exact whole le
      · exact absurd zero (Nat.ne_of_gt positive)
    rw [foldPass, split, List.filterMap_cons_some folded, foldPass]

theorem runs_zero (positive : 0 < length) : Size.runs 0 length = 0 := by
  unfold Size.runs
  rw [Nat.div_eq_zero_iff]
  omega

theorem runs_eq_succ
    (positive : 0 < length)
    {total : Nat}
    (some : 0 < total) :
    Size.runs total length = Size.runs (total - length) length + 1 := by
  unfold Size.runs
  rw [← Nat.add_div_right _ positive]
  by_cases whole : total ≤ length
  · have left : (total + length - 1) / length = 1 := by
      rw [Nat.div_eq_iff positive]
      omega
    have right : (total - length + length - 1 + length) / length = 1 := by
      rw [Nat.div_eq_iff positive]
      omega
    rw [left, right]
  · congr 1
    omega

theorem runs_le
    (long : 2 ≤ length)
    (total : Nat) :
    Size.runs total length ≤ total := by
  have positive : 0 < length := Nat.lt_of_lt_of_le Nat.zero_lt_two long
  rcases Nat.lt_or_ge 1 total with many | few
  · exact Nat.le_of_lt (Size.runs_lt many long)
  · rcases Nat.le_one_iff_eq_zero_or_eq_one.1 few with rfl | rfl
    · exact Nat.le_of_eq (runs_zero positive)
    · rw [runs_eq_succ positive Nat.one_pos, Nat.sub_eq_zero_of_le positive, runs_zero positive]

/-- A run that exists starts before the end. -/
theorem start_lt_of_lt_runs
    (positive : 0 < length)
    {total run : Nat}
    (inside : run < Size.runs total length) :
    run * length < total := by
  unfold Size.runs at inside
  rw [Nat.lt_div_iff_mul_lt positive] at inside
  omega

theorem length_foldPass (positive : 0 < length) (values : List α) :
    (foldPass combine length values).length = Size.runs values.length length := by
  induction size : values.length using Nat.strong_induction_on generalizing values with
  | _ total step =>
    by_cases filled : values = []
    · subst filled
      rw [foldPass_nil, ← size, List.length_nil, runs_zero positive]
    · have some : 0 < values.length := List.length_pos_iff.2 filled
      obtain ⟨first, -, split⟩ := foldPass_eq_cons combine positive filled
      have rest := step (total - length) (by omega) (values.drop length)
        (by rw [List.length_drop, size])
      rw [split, List.length_cons, rest]
      exact (runs_eq_succ positive (size ▸ some)).symm

/-- The element at the place of a run is that run, folded. -/
theorem getElem?_foldPass
    (positive : 0 < length)
    {values : List α}
    {run : Nat}
    (inside : run * length < values.length) :
    (foldPass combine length values)[run]? =
      foldRun? combine ((values.drop (run * length)).take length) := by
  induction run generalizing values with
  | zero =>
    have filled : values ≠ [] := by
      rintro rfl
      exact absurd inside (Nat.not_lt_zero _)
    obtain ⟨first, folded, split⟩ := foldPass_eq_cons combine positive filled
    rw [split, Nat.zero_mul, List.drop_zero, folded]
    rfl
  | succ run step =>
    rw [Nat.succ_mul] at inside
    have filled : values ≠ [] := by
      rintro rfl
      exact absurd inside (Nat.not_lt_zero _)
    obtain ⟨first, -, split⟩ := foldPass_eq_cons combine positive filled
    rw [split, List.getElem?_cons_succ, step (by rw [List.length_drop]; omega),
      List.drop_drop, Nat.succ_mul, Nat.add_comm length]

theorem foldPasses_of_le
    {values : List α}
    (few : values.length ≤ 1)
    (passes : Nat) :
    foldPasses combine length passes values = values := by
  cases passes with
  | zero => rfl
  | succ passes => rw [foldPasses, if_pos few]

/-- Any number of passes that is enough does as well as any other. -/
theorem foldPasses_congr
    (long : 2 ≤ length)
    {values : List α}
    {passes more : Nat}
    (enough : values.length ≤ passes)
    (others : values.length ≤ more) :
    foldPasses combine length passes values = foldPasses combine length more values := by
  induction passes generalizing more values with
  | zero =>
    have few : values.length ≤ 1 := by omega
    rw [foldPasses_of_le few, foldPasses_of_le few]
  | succ passes step =>
    by_cases few : values.length ≤ 1
    · rw [foldPasses_of_le few, foldPasses_of_le few]
    · cases more with
      | zero => omega
      | succ more =>
        have fewer : (foldPass combine length values).length < values.length := by
          rw [length_foldPass (by omega)]
          exact Size.runs_lt (by omega) long
        rw [foldPasses, foldPasses, if_neg few, if_neg few]
        exact step (by omega) (by omega)

/-- Enough passes leave a single element, if there are any at all. -/
theorem exists_foldPasses
    (long : 2 ≤ length)
    {values : List α}
    {passes : Nat}
    (enough : values.length ≤ passes)
    (filled : 0 < values.length) :
    ∃ total, foldPasses combine length passes values = [total] := by
  induction passes generalizing values with
  | zero => omega
  | succ passes step =>
    by_cases few : values.length ≤ 1
    · rw [foldPasses_of_le few]
      exact List.length_eq_one_iff.1 (by omega)
    · have positive : 0 < length := by omega
      have count : (foldPass combine length values).length = _ := length_foldPass positive values
      have fewer := Size.runs_lt (Nat.lt_of_not_le few) long
      have some := runs_eq_succ positive filled
      rw [foldPasses, if_neg few]
      exact step (by omega) (by omega)

@[simp]
theorem treeFold_nil : treeFold combine length [] = [] := by
  rw [treeFold, foldPass_nil]
  rfl

/-- Folding what is not empty gives a single element. -/
theorem exists_treeFold
    (combine : α → α → α)
    (long : 2 ≤ length)
    {values : List α}
    (filled : 0 < values.length) :
    ∃ total, treeFold combine length values = [total] := by
  have positive : 0 < length := by omega
  have count : (foldPass combine length values).length = _ := length_foldPass positive values
  have fewer := runs_le long values.length
  have some := runs_eq_succ positive filled
  exact exists_foldPasses long (by omega) (by omega)

end

/-! ## The kernel of a pass -/

variable {α ω : Type}

/--
A source that gives the element of its index, up to a number of elements, from any
workspace of a kind.
-/
def Source.Yields
    (source : Source α ω)
    (inputs : Array (Array α))
    (keeps : ω → Prop)
    (count : Nat)
    (get : Nat → α) : Prop :=
  ∀ index workspace value next, keeps workspace →
    source index inputs workspace = .ok (value, next) →
    (index < count → value = get index) ∧ keeps next

namespace AxisLayout

variable
    {layout : AxisLayout}
    {fanIn before along behind : Nat}
    {combine : α → α → α}
    {source : Source α ω}
    {inputs : Array (Array α)}
    {keeps : ω → Prop}
    {get : Nat → α}

/-- The element at a place before, along and behind the axis. -/
def entry (layout : AxisLayout) (get : Nat → α) (before behind along : Nat) : α :=
  get ((before * layout.length + along) * layout.inner + behind)

/-- The elements along the axis at a place before and behind it. -/
def entries (layout : AxisLayout) (get : Nat → α) (before behind : Nat) : List α :=
  (List.range layout.length).map (layout.entry get before behind)

theorem length_entries : (layout.entries get before behind).length = layout.length := by
  rw [entries, List.length_map, List.length_range]

/-- Consecutive entries are those of consecutive places. -/
theorem slice_entries (first count : Nat) :
    ((layout.entries get before behind).drop first).take count =
      (List.range' first (min count (layout.length - first))).map
        (layout.entry get before behind) := by
  refine List.ext_getElem ?_ fun place _ _ => ?_
  · simp [entries]
  · simp [entries]

theorem offset_eq_ok
    {index : Nat}
    (offset : layout.offset before along behind = .ok index) :
    index = (before * layout.length + along) * layout.inner + behind := by
  obtain ⟨_, skipped, offset⟩ := bind_eq_ok_iff.1 offset
  obtain ⟨_, entry, offset⟩ := bind_eq_ok_iff.1 offset
  obtain ⟨_, start, offset⟩ := bind_eq_ok_iff.1 offset
  obtain ⟨-, rfl⟩ := Size.check_eq_ok_iff.1 skipped
  obtain ⟨-, rfl⟩ := Size.check_eq_ok_iff.1 entry
  obtain ⟨-, rfl⟩ := Size.check_eq_ok_iff.1 start
  exact (Size.check_eq_ok_iff.1 offset).2

theorem sizeAlong_eq_ok
    {length size : Nat}
    (counted : layout.sizeAlong length = .ok size) :
    size = layout.outer * length * layout.inner := by
  obtain ⟨_, slices, counted⟩ := bind_eq_ok_iff.1 counted
  obtain ⟨-, rfl⟩ := Size.check_eq_ok_iff.1 slices
  exact (Size.check_eq_ok_iff.1 counted).2

/-- A number in mixed radix is taken apart by division. -/
theorem div_mod_of_lt
    (whole : Nat)
    {part size : Nat}
    (inside : part < size) :
    (whole * size + part) / size = whole ∧ (whole * size + part) % size = part := by
  have positive : 0 < size := Nat.zero_lt_of_lt inside
  rw [Nat.mul_comm, Nat.mul_add_div positive, Nat.mul_add_mod, Nat.div_eq_of_lt inside,
    Nat.mod_eq_of_lt inside]
  exact ⟨rfl, rfl⟩

theorem place_lt
    {outer length inner before along behind : Nat}
    (outside : before < outer)
    (inside : along < length)
    (last : behind < inner) :
    (before * length + along) * inner + behind < outer * length * inner := by
  calc (before * length + along) * inner + behind
      < (before * length + along) * inner + inner := Nat.add_lt_add_left last _
    _ = (before * length + along + 1) * inner := (Nat.succ_mul _ _).symm
    _ ≤ (before * length + length) * inner :=
        Nat.mul_le_mul_right _ (Nat.add_le_add_left inside _)
    _ = (before + 1) * length * inner := by rw [Nat.succ_mul]
    _ ≤ outer * length * inner :=
        Nat.mul_le_mul_right _ (Nat.mul_le_mul_right _ outside)

/-- The place of an entry that is the only one along the axis. -/
theorem place_lt_of_single
    {outer inner before behind : Nat}
    (outside : before < outer)
    (last : behind < inner) :
    before * inner + behind < outer * inner := by
  simpa only [Nat.mul_one, Nat.add_zero] using place_lt outside Nat.zero_lt_one last

/-- How many elements a layout has. -/
def count (layout : AxisLayout) : Nat :=
  layout.outer * layout.length * layout.inner

/-- Folding entries one by one is folding the list of them. -/
theorem foldEntries_eq_ok
    (yields : source.Yields inputs keeps layout.count get)
    {count : Nat}
    {folded result : α}
    {workspace next : ω}
    (kept : keeps workspace)
    (ran : layout.foldEntries combine source inputs before behind count along folded workspace =
      .ok (result, next)) :
    keeps next ∧ (before < layout.outer → behind < layout.inner →
      along + count ≤ layout.length →
        result = ((List.range' along count).map (layout.entry get before behind)).foldl
          combine folded) := by
  induction count generalizing along folded workspace with
  | zero =>
    cases ran
    exact ⟨kept, fun _ _ _ => rfl⟩
  | succ count step =>
    obtain ⟨index, offset, ran⟩ := bind_eq_ok_iff.1 ran
    obtain ⟨⟨value, middle⟩, read, ran⟩ := bind_eq_ok_iff.1 ran
    obtain ⟨gives, keptMiddle⟩ := yields index workspace value middle kept read
    obtain ⟨keptNext, rest⟩ := step keptMiddle ran
    obtain rfl := offset_eq_ok offset
    refine ⟨keptNext, fun outside last fits => ?_⟩
    rw [rest outside last (by omega), gives (place_lt outside (by omega) last)]
    rfl

/-- A row of the kernel is the run of its index, folded. -/
theorem passKernel_row_eq_ok
    (yields : source.Yields inputs keeps layout.count get)
    {initial : ω}
    {index : Nat}
    {row : Array α}
    {workspace next : ω}
    (positive : 0 < fanIn)
    (kept : keeps workspace)
    (ran : (layout.passKernel fanIn combine initial source).row index inputs workspace =
      .ok (row, next)) :
    keeps next ∧ (index / layout.inner / Size.runs layout.length fanIn < layout.outer →
      index % layout.inner < layout.inner →
      index / layout.inner % Size.runs layout.length fanIn < Size.runs layout.length fanIn →
      ∃ value, row = #[value] ∧
        (foldPass combine fanIn (layout.entries get
          (index / layout.inner / Size.runs layout.length fanIn) (index % layout.inner)))[
            index / layout.inner % Size.runs layout.length fanIn]? = some value) := by
  obtain ⟨first, start, ran⟩ := bind_eq_ok_iff.1 ran
  obtain ⟨bound, stop, ran⟩ := bind_eq_ok_iff.1 ran
  obtain ⟨place, offset, ran⟩ := bind_eq_ok_iff.1 ran
  obtain ⟨⟨head, middle⟩, read, ran⟩ := bind_eq_ok_iff.1 ran
  obtain ⟨⟨folded, after⟩, rest, ran⟩ := bind_eq_ok_iff.1 ran
  cases ran
  obtain ⟨-, rfl⟩ := Size.check_eq_ok_iff.1 start
  obtain ⟨-, rfl⟩ := Size.check_eq_ok_iff.1 stop
  obtain rfl := offset_eq_ok offset
  obtain ⟨gives, keptMiddle⟩ := yields _ _ _ _ kept read
  obtain ⟨keptNext, folds⟩ := foldEntries_eq_ok yields keptMiddle rest
  refine ⟨keptNext, fun outside last inside => ⟨_, rfl, ?_⟩⟩
  have started := start_lt_of_lt_runs positive inside
  rw [folds outside last (by omega), gives (place_lt outside started last)]
  rw [getElem?_foldPass positive (by rwa [length_entries]), slice_entries]
  generalize index / layout.inner % Size.runs layout.length fanIn * fanIn = first at started ⊢
  have count : min fanIn (layout.length - first) =
      min (first + fanIn) layout.length - (first + 1) + 1 := by omega
  rw [count, List.range'_succ]
  rfl

variable [Arithmetic α]

/-- Values laid out so that the entries at each place besides the axis are a given list. -/
structure Holds
    (layout : AxisLayout)
    (lists : Nat → Nat → List α)
    (values : Array α) : Prop where
  size : values.size = layout.outer * layout.length * layout.inner
  entries : ∀ before behind, before < layout.outer → behind < layout.inner →
    layout.entries (values.getD · Arithmetic.zero) before behind = lists before behind

/-- The layout after a pass. -/
def shortened (layout : AxisLayout) (fanIn : Nat) : AxisLayout :=
  { layout with length := Size.runs layout.length fanIn }

/-- The layout after all passes. -/
def reduced (layout : AxisLayout) : AxisLayout :=
  { layout with length := min layout.length 1 }

/-- A pass leaves something to reduce if there was something. -/
theorem reduced_shortened (positive : 0 < fanIn) :
    (layout.shortened fanIn).reduced = layout.reduced := by
  have same : min (Size.runs layout.length fanIn) 1 = min layout.length 1 := by
    rcases Nat.eq_zero_or_pos layout.length with none | some
    · rw [none, runs_zero positive]
    · rw [runs_eq_succ positive some]
      omega
  simp only [reduced, shortened, same]

/-- One pass over the entries at each place besides the axis. -/
def passed
    (layout : AxisLayout)
    (fanIn : Nat)
    (combine : α → α → α)
    (get : Nat → α)
    (before behind : Nat) : List α :=
  foldPass combine fanIn (layout.entries get before behind)

theorem Holds.congr
    {lists others : Nat → Nat → List α}
    {values : Array α}
    (holds : layout.Holds lists values)
    (same : ∀ before behind, before < layout.outer → behind < layout.inner →
      lists before behind = others before behind) :
    layout.Holds others values where
  size := holds.size
  entries before behind outside last := by
    rw [holds.entries before behind outside last, same before behind outside last]

/-- The column of the kernel is one pass over every list of entries. -/
theorem holds_of_rows
    (yields : source.Yields inputs keeps layout.count get)
    {initial : ω}
    {rows : Array (Array α)}
    {old : Array α}
    (positive : 0 < fanIn)
    (kept : keeps initial)
    (size : old.size = layout.outer * Size.runs layout.length fanIn * layout.inner)
    (ran : (layout.passKernel fanIn combine initial source).rows inputs
      (layout.outer * Size.runs layout.length fanIn * layout.inner) = .ok rows) :
    (layout.shortened fanIn).Holds (layout.passed fanIn combine get)
      (Pool.writeColumn rows 0 old) := by
  obtain ⟨-, each⟩ := Kernel.rows_eq_ok keeps kept
    (fun _ _ _ _ held done => (passKernel_row_eq_ok yields positive held done).1) ran
  refine ⟨(Pool.size_writeColumn ..).trans size, ?_⟩
  intro before behind (outside : before < layout.outer) (last : behind < layout.inner)
  refine List.ext_getElem? fun run => ?_
  by_cases inside : run < Size.runs layout.length fanIn
  · have place := place_lt outside inside last
    obtain ⟨workspace, next, row, held, done, found⟩ := each _ place
    have folded := (passKernel_row_eq_ok yields positive held done).2
    obtain ⟨outerPart, behindPart⟩ :=
      div_mod_of_lt (before * Size.runs layout.length fanIn + run) last
    obtain ⟨beforePart, runPart⟩ := div_mod_of_lt before inside
    rw [outerPart, behindPart, beforePart, runPart] at folded
    obtain ⟨value, rfl, isFolded⟩ := folded outside last inside
    have written := Pool.getElem?_writeColumn 0 found (size ▸ place)
    have along : (List.range (layout.shortened fanIn).length)[run]? = some run :=
      List.getElem?_range inside
    rw [passed, isFolded, AxisLayout.entries, List.getElem?_map, along, Option.map_some]
    refine congrArg some ((Array.getD_eq_getD_getElem? ..).trans ?_)
    exact congrArg (Option.getD · Arithmetic.zero) written
  · rw [List.getElem?_eq_none, List.getElem?_eq_none]
    · rw [passed, length_foldPass positive, length_entries]
      exact Nat.le_of_not_lt inside
    · rw [length_entries]
      exact Nat.le_of_not_lt inside

end AxisLayout

end Elementwise
