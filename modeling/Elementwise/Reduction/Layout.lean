import Elementwise.Shape.Index

/-!
# A tensor around one axis

For a reduction, a tensor in row-major order is seen as a block of `outer`
slices, each of which lists `length` entries along the axis, each of which
consists of `inner` elements.
-/

namespace Elementwise

/-- The sizes before, along and behind the reduced axis. -/
structure AxisLayout where
  outer : Nat
  length : Nat
  inner : Nat
deriving DecidableEq, Repr, Inhabited

namespace AxisLayout

/-- The layout of a shape around one of its axes. -/
def ofShape (shape : Shape) (axis : Nat) : Except Error AxisLayout := do
  shape.checkAxis axis
  let outer ← Size.lift (Size.product (shape.dims.take axis))
  let inner ← Size.lift (Size.product (shape.dims.drop (axis + 1)))
  return ⟨outer, shape.dims.getD axis 0, inner⟩

/-- A flat buffer as one axis. -/
def flat (length : Nat) : AxisLayout :=
  ⟨1, length, 1⟩

/-- The number of the element at given places before, along and behind the axis. -/
def offset (layout : AxisLayout) (before along behind : Nat) : Except Fault Nat := do
  let skipped ← Size.mul before layout.length
  let entry ← Size.add skipped along
  let start ← Size.mul entry layout.inner
  Size.add start behind

/-- How many elements there are once the axis has a given length. -/
def sizeAlong (layout : AxisLayout) (length : Nat) : Except Fault Nat := do
  let slices ← Size.mul layout.outer length
  Size.mul slices layout.inner

/-- How many elements there are besides the axis. -/
def reducedSize (layout : AxisLayout) : Except Fault Nat :=
  Size.mul layout.outer layout.inner

end AxisLayout

end Elementwise
