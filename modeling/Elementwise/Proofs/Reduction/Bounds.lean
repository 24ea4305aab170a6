import Elementwise.Proofs.Reduction.Room

/-!
# Passes that read nothing beyond its end

A pass finds every element that it asks its source for, whatever the sizes are.
Only a size that is no machine size can stop it: the end of the last run may
lie beyond the axis by as much as one run is long.
-/

namespace Elementwise

variable {α β γ ω : Type}

/-- A result that satisfies a condition, or a failure that no index out of bounds has caused. -/
def Inside (holds : β → Prop) : Except Fault β → Prop
  | .ok answer => holds answer
  | .error reason => reason ≠ .outOfBounds

section

variable
    {holds : β → Prop}
    {holdsAfter : γ → Prop}
    {result : Except Fault β}

theorem Inside.bind
    {rest : β → Except Fault γ}
    (inside : Inside holds result)
    (goesOn : ∀ answer, holds answer → Inside holdsAfter (rest answer)) :
    Inside holdsAfter (result >>= rest) := by
  cases result with
  | error reason => exact inside
  | ok answer => exact goesOn answer inside

theorem Inside.of_isOk
    (computes : ∃ answer, result = .ok answer ∧ holds answer) :
    Inside holds result := by
  obtain ⟨answer, rfl, holds⟩ := computes
  exact holds

theorem Inside.ne_outOfBounds (inside : Inside holds result) : result ≠ .error .outOfBounds := by
  rintro rfl
  exact inside rfl

theorem inside_check (value : Nat) : Inside (· = value) (Size.check value) := by
  unfold Size.check
  split
  · exact rfl
  · exact nofun

end

/-! ## The rows of a kernel -/

namespace Kernel

variable
    {kernel : Kernel α ω}
    {inputs : Array (Array α)}
    {keeps : ω → Prop}

theorem rowsFrom_inside
    {count first : Nat}
    {done : Array (Array α)}
    {workspace : ω}
    (kept : keeps workspace)
    (each : ∀ index, index < first + count → ∀ workspace, keeps workspace →
      Inside (fun result => keeps result.2) (kernel.row index inputs workspace)) :
    Inside (fun _ => True) (kernel.rowsFrom inputs count first done workspace) := by
  induction count generalizing first done workspace with
  | zero => trivial
  | succ count step =>
    refine (each first (by omega) workspace kept).bind ?_
    rintro ⟨row, next⟩ keptNext
    exact step keptNext fun index inside => each index (by omega)

/-- A launch stays inside its inputs if each of its rows does. -/
theorem rows_ne_outOfBounds
    (keeps : ω → Prop)
    {length : Nat}
    (initial : keeps kernel.initial)
    (each : ∀ index, index < length → ∀ workspace, keeps workspace →
      Inside (fun result => keeps result.2) (kernel.row index inputs workspace)) :
    kernel.rows inputs length ≠ .error .outOfBounds :=
  (rowsFrom_inside initial fun index inside => each index (by omega)).ne_outOfBounds

end Kernel

/-! ## The kernel of a pass -/

namespace AxisLayout

variable
    {layout : AxisLayout}
    {fanIn before along behind : Nat}
    {initial : ω}
    {source : Source α ω}
    {inputs : Array (Array α)}
    {keeps : ω → Prop}

theorem offset_inside (layout : AxisLayout) (before along behind : Nat) :
    Inside (· = (before * layout.length + along) * layout.inner + behind)
      (layout.offset before along behind) := by
  refine (inside_check _).bind ?_
  rintro _ rfl
  refine (inside_check _).bind ?_
  rintro _ rfl
  refine (inside_check _).bind ?_
  rintro _ rfl
  exact inside_check _

/-- An element whose place exists is found. -/
theorem read_inside
    (gives : source.Gives inputs keeps layout.count)
    (outside : before < layout.outer)
    (inside : along < layout.length)
    (last : behind < layout.inner)
    {workspace : ω}
    (kept : keeps workspace) :
    Inside (fun result : α × ω => keeps result.2)
      (layout.offset before along behind >>= fun index => source index inputs workspace) := by
  refine (offset_inside layout before along behind).bind ?_
  rintro _ rfl
  obtain ⟨value, next, read, keptNext⟩ := gives _ (place_lt outside inside last) workspace kept
  exact .of_isOk ⟨(value, next), read, keptNext⟩

theorem foldEntries_inside
    (combine : α → α → α)
    (gives : source.Gives inputs keeps layout.count)
    (outside : before < layout.outer)
    (last : behind < layout.inner)
    {count : Nat}
    (fits : along + count ≤ layout.length)
    (folded : α)
    {workspace : ω}
    (kept : keeps workspace) :
    Inside (fun result : α × ω => keeps result.2)
      (layout.foldEntries combine source inputs before behind count along folded workspace) := by
  induction count generalizing along folded workspace with
  | zero => exact kept
  | succ count step =>
    have here : along < layout.length := by omega
    unfold foldEntries
    rw [← bind_assoc]
    refine (read_inside gives outside here last kept).bind ?_
    rintro ⟨value, next⟩ keptNext
    exact step (by omega) (combine folded value) keptNext

/-- Each result of a pass is computed from elements that exist. -/
theorem passKernel_row_inside
    (combine : α → α → α)
    (gives : source.Gives inputs keeps layout.count)
    (positive : 0 < fanIn)
    {index : Nat}
    (inside : index < (layout.shortened fanIn).count)
    {workspace : ω}
    (kept : keeps workspace) :
    Inside (fun result => keeps result.2)
      ((layout.passKernel fanIn combine initial source).row index inputs workspace) := by
  obtain ⟨outside, started, last, fits⟩ := place_of_lt_count positive inside
  unfold passKernel
  dsimp only
  refine (inside_check _).bind ?_
  rintro _ rfl
  refine (inside_check _).bind ?_
  rintro _ rfl
  rw [← bind_assoc]
  refine (read_inside gives outside started last kept).bind ?_
  rintro ⟨value, next⟩ keptNext
  refine (foldEntries_inside combine gives outside last fits value keptNext).bind ?_
  rintro ⟨folded, final⟩ keptFinal
  exact keptFinal

/-- A pass over a source that has all elements of the layout stays inside its inputs. -/
theorem passKernel_rows_ne_outOfBounds
    (combine : α → α → α)
    (gives : source.Gives inputs keeps layout.count)
    (positive : 0 < fanIn)
    (kept : keeps initial) :
    (layout.passKernel fanIn combine initial source).rows inputs (layout.shortened fanIn).count ≠
      .error .outOfBounds :=
  Kernel.rows_ne_outOfBounds keeps kept fun _ inside _ holds =>
    passKernel_row_inside combine gives positive inside holds

end AxisLayout

end Elementwise
