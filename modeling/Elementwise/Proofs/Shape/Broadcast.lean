import Elementwise.Shape.Index
import Elementwise.Proofs.Action

/-!
# Broadcasting in either order

Whether two shapes broadcast does not depend on their order, and neither does
the result, with one exception: two scalars of different shapes broadcast to
the one on the right.
-/

namespace Elementwise.Shape

variable {left right shape : Shape} {sizeLeft sizeRight : Nat}

theorem isScalar_of_sized
    (sized : left.size = .ok sizeLeft) :
    Size.lift left.isScalar = .ok (sizeLeft == 1) := by
  rw [isScalar, sized]
  rfl

/-- What shapes whose elements can be counted broadcast to. -/
theorem broadcast_of_sized
    (sizedLeft : left.size = .ok sizeLeft)
    (sizedRight : right.size = .ok sizeRight) :
    left.broadcast right =
      if sizeLeft = 1 then .ok right
      else if sizeRight = 1 ∨ left = right then .ok left
      else .error (.shapeMismatch left right) := by
  rw [broadcast, isScalar_of_sized sizedLeft, isScalar_of_sized sizedRight]
  by_cases singleLeft : sizeLeft = 1
  · simp [singleLeft, bind, Except.bind, pure, Except.pure]
  by_cases singleRight : sizeRight = 1
  · simp [singleLeft, singleRight, bind, Except.bind, pure, Except.pure]
  by_cases same : left = right
  · simp [singleLeft, singleRight, same, bind, Except.bind, pure, Except.pure]
  · simp [singleLeft, singleRight, same, bind, Except.bind, throw, throwThe,
      MonadExceptOf.throw]

/-- Two different shapes with a single element each. -/
structure Rivals (left right : Shape) : Prop where
  singleLeft : left.size = .ok 1
  singleRight : right.size = .ok 1
  different : left ≠ right

/--
Two shapes whose elements can be counted broadcast to the same in either order or are refused in
either order, unless they are rivals, of which the one on the right prevails.
-/
theorem broadcast_swap
    (sizedLeft : left.size = .ok sizeLeft)
    (sizedRight : right.size = .ok sizeRight) :
    (∃ shape, left.broadcast right = .ok shape ∧ right.broadcast left = .ok shape) ∨
      (left.Rivals right ∧
        left.broadcast right = .ok right ∧ right.broadcast left = .ok left) ∨
      left.broadcast right = .error (.shapeMismatch left right) ∧
        right.broadcast left = .error (.shapeMismatch right left) := by
  rw [broadcast_of_sized sizedLeft sizedRight, broadcast_of_sized sizedRight sizedLeft]
  by_cases same : left = right
  · subst same
    cases sizedLeft.symm.trans sizedRight
    exact .inl ⟨left, by split <;> simp⟩
  by_cases singleLeft : sizeLeft = 1 <;> by_cases singleRight : sizeRight = 1
  · exact .inr (.inl ⟨⟨singleLeft ▸ sizedLeft, singleRight ▸ sizedRight, same⟩,
      if_pos singleLeft, if_pos singleRight⟩)
  · exact .inl ⟨right, by simp [singleLeft, singleRight]⟩
  · exact .inl ⟨left, by simp [singleLeft, singleRight]⟩
  · exact .inr (.inr (by simp [singleLeft, singleRight, same, Ne.symm same]))

end Elementwise.Shape
