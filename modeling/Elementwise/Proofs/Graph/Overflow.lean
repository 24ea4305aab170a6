import Elementwise.Proofs.Graph.Reduction
import Elementwise.Proofs.Reduction.Room

/-!
# Which reductions overflow

A shape is accepted if the product of its dimensions, taken from the left, is
computed.  A reduction multiplies other lists of dimensions: those in front of the
axis, those behind it, and all of them with the axis replaced by one.  The first are
part of what was computed before.  The other two may be missing from it, but only
where an empty dimension in front, or the axis itself, has hidden them.
-/

namespace Elementwise

namespace Shape

/--
A size of a reduction along an axis leaves the range: that of the elements behind the
axis, or, if the axis is empty, that of the result.
-/
def OverflowsAlong (shape : Shape) (along : Nat) : Prop :=
  (∃ count, Size.limit ≤ ((shape.dims.drop (along + 1)).take count).prod) ∨
    shape.dims[along]? = some 0 ∧
      ∃ count, Size.limit ≤ ((shape.dims.set along 1).take count).prod

variable
    {shape : Shape}
    {along size : Nat}

theorem overflowsAlong_iff :
    shape.OverflowsAlong along ↔
      Size.product (shape.dims.drop (along + 1)) = .error .overflow ∨
        shape.dims[along]? = some 0 ∧
          Size.product (shape.dims.set along 1) = .error .overflow := by
  simp only [OverflowsAlong, Size.product_eq_error_iff, true_and]

section

variable
    (sized : shape.size = .ok size)

include sized

/-- Only an empty dimension up to the axis can hide a size that is too large. -/
theorem OverflowsAlong.mem_take
    (overflows : shape.OverflowsAlong along) :
    0 ∈ shape.dims.take (along + 1) := by
  rcases overflowsAlong_iff.1 overflows with behind | ⟨empty, -⟩
  · by_contra none
    have positive : 0 < (shape.dims.take (along + 1)).prod :=
      List.prod_pos_iff_forall_pos_nat.2 fun dim member =>
        Nat.pos_of_ne_zero fun zero => none (zero ▸ member)
    rw [Size.product_drop sized positive] at behind
    cases behind
  · refine List.mem_of_getElem? (i := along) ?_
    rw [List.getElem?_take_of_succ, empty]

/-- The elements of the result can be counted. -/
theorem product_set_of_fits
    (fits : ¬ shape.OverflowsAlong along) :
    Size.product (shape.dims.set along 1) = .ok (shape.dims.set along 1).prod := by
  by_cases empty : shape.dims[along]? = some 0
  · exact Size.product_eq_ok_of_ne fun overflow =>
      fits (overflowsAlong_iff.2 (.inr ⟨empty, overflow⟩))
  · refine Size.product_set_one sized fun dim found => Nat.pos_of_ne_zero ?_
    rintro rfl
    exact empty found

end

/-- The shape with one axis resized. -/
theorem withDim_of_lt
    (inside : along < shape.rank) :
    shape.withDim along size = .ok ⟨shape.dims.set along size⟩ := by
  rw [withDim, checkAxis, if_pos inside]
  rfl

end Shape

namespace AxisLayout

variable
    {layout : AxisLayout}
    {shape : Shape}
    {along size : Nat}

section

variable
    (sized : shape.size = .ok size)
    (inside : along < shape.rank)

include sized inside

theorem ofShape_of_ne
    (behind : Size.product (shape.dims.drop (along + 1)) ≠ .error .overflow) :
    ofShape shape along = .ok (around shape along) := by
  rw [ofShape, Shape.checkAxis, if_pos inside, Size.product_take sized,
    Size.product_eq_ok_of_ne behind]
  rfl

/-- Where the elements behind the axis cannot be counted, there is no layout. -/
theorem ofShape_of_overflow
    (behind : Size.product (shape.dims.drop (along + 1)) = .error .overflow) :
    ofShape shape along = .error (.fault .overflow) := by
  rw [ofShape, Shape.checkAxis, if_pos inside, Size.product_take sized, behind]
  rfl

end

/-- An empty axis leaves nothing to read. -/
theorem reducesNothing_of_empty
    (empty : shape.dims[along]? = some 0) :
    Graph.reducesNothing (around shape along) = .ok true := by
  have none : (around shape along).length = 0 := by
    rw [around, List.getD_eq_getElem?_getD, empty, Option.getD_some]
  rw [Graph.reducesNothing, if_pos none]
  rfl

/-- Where all elements can be counted, so can those besides the axis, unless it is empty. -/
theorem reducesNothing_isOk
    (counted : layout.count < Size.limit) :
    ∃ nothing, Graph.reducesNothing layout = .ok nothing := by
  unfold Graph.reducesNothing
  split
  · exact ⟨true, rfl⟩
  next some =>
    have smaller : layout.outer * layout.inner ≤ layout.count :=
      Nat.mul_le_mul_right _ (Nat.le_mul_of_pos_right _ (Nat.pos_of_ne_zero some))
    have multiplied : layout.reducedSize = .ok (layout.outer * layout.inner) :=
      Size.check_eq_ok_iff.2 ⟨Nat.lt_of_le_of_lt smaller counted, rfl⟩
    rw [multiplied]
    exact ⟨_, rfl⟩

/-- Where there is something to reduce, no place is farther than there are elements. -/
theorem addressable_of_reducesNothing
    (half : 2 * layout.count ≤ Size.limit)
    (decided : Graph.reducesNothing layout = .ok false) :
    layout.Addressable := by
  have some := mt (Graph.reducesNothing_eq_ok decided).2 Bool.false_ne_true
  rw [not_or] at some
  have positive : 0 < layout.outer ∧ 0 < layout.inner :=
    ⟨Nat.pos_of_ne_zero fun none => some.2 (by rw [none, Nat.zero_mul]),
      Nat.pos_of_ne_zero fun none => some.2 (by rw [none, Nat.mul_zero])⟩
  have slices : layout.outer * layout.length ≤ layout.count :=
    Nat.le_mul_of_pos_right _ positive.2
  have length : layout.length ≤ layout.outer * layout.length :=
    Nat.le_mul_of_pos_left _ positive.1
  have limit : 0 < Size.limit := by decide
  exact ⟨by omega, by omega, by omega⟩

end AxisLayout

end Elementwise
