import Elementwise.Error

/-!
# Broadcasting and row-major indexing

A scalar broadcasts against any shape; two other shapes must agree.  The
elements of a tensor are numbered in row-major order: `flatten` turns a
coordinate into its number and `unflatten` turns a number back into its
coordinate, reading the digits of the number in the mixed radix that the
dimensions form, the last dimension being the least significant.
-/

namespace Elementwise

namespace Shape

/--
The shape of an elementwise operation over two shapes.  A scalar on the left
takes the shape on the right, then a scalar on the right that on the left.
-/
def broadcast (left right : Shape) : Except Error Shape := do
  if ← Size.lift left.isScalar then
    return right
  if ← Size.lift right.isScalar then
    return left
  if left = right then
    return left
  throw (.shapeMismatch left right)

/--
The number of a coordinate, read as a numeral in mixed radix.  A component
that reaches its dimension is refused before the number is extended.
-/
def flattenFrom
    (refusal : Error) :
    Nat → List Nat → List Nat → Except Error Nat
  | flat, component :: components, dim :: dims => do
      if dim ≤ component then
        throw refusal
      let shifted ← Size.lift (Size.mul flat dim)
      let extended ← Size.lift (Size.add shifted component)
      flattenFrom refusal extended components dims
  | flat, _, _ => pure flat

/-- The number of the element at a coordinate. -/
def flatten (shape : Shape) (index : List Nat) : Except Error Nat :=
  if index.length = shape.rank then
    flattenFrom (.indexOutOfRange index shape) 0 index shape.dims
  else
    throw (.indexOutOfRange index shape)

/--
The digits of a number in mixed radix, the least significant digit taken
first; radices and digits are listed with the least significant first.
-/
def digits : Nat → List Nat → List Nat
  | _, [] => []
  | number, radix :: radices => number % radix :: digits (number / radix) radices

/-- The coordinate of the element with a given number. -/
def unflatten (shape : Shape) (flat : Nat) : Except Error (List Nat) := do
  let size ← Size.lift shape.size
  if flat < size then
    return (digits flat shape.dims.reverse).reverse
  throw (.indexOutOfRange [flat] shape)

/-- Refuses an axis that the shape does not have. -/
def checkAxis (shape : Shape) (axis : Nat) : Except Error Unit :=
  if axis < shape.rank then
    pure ()
  else
    throw (.axisOutOfRange axis shape.rank)

/-- How far apart the numbers of neighbours along an axis are. -/
def stride (shape : Shape) (axis : Nat) : Except Error Nat := do
  shape.checkAxis axis
  Size.lift (Size.product (shape.dims.drop (axis + 1)))

/-- The shape with the size of one axis replaced. -/
def withDim (shape : Shape) (axis size : Nat) : Except Error Shape := do
  shape.checkAxis axis
  return ⟨shape.dims.set axis size⟩

end Shape

end Elementwise
