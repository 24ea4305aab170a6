import Elementwise.Size

/-!
# Tensor shapes

A shape lists the dimensions of a tensor, the slowest varying first.  Its
element count is the product of the dimensions, which is one for the shape
without dimensions.  A shape with exactly one element is a scalar, whatever
its rank.
-/

namespace Elementwise

/-- The dimensions of a tensor stored in row-major order. -/
structure Shape where
  dims : List Nat
deriving DecidableEq, Repr, Inhabited

namespace Shape

/-- The canonical scalar shape has one dimension of size one. -/
def scalar : Shape := ⟨[1]⟩

/-- The number of dimensions. -/
def rank (shape : Shape) : Nat :=
  shape.dims.length

/-- The number of elements. -/
def size (shape : Shape) : Except Fault Nat :=
  Size.product shape.dims

/-- Whether the shape holds no element at all. -/
def isEmpty (shape : Shape) : Except Fault Bool := do
  return (← shape.size) == 0

/-- Whether the shape holds exactly one element. -/
def isScalar (shape : Shape) : Except Fault Bool := do
  return (← shape.size) == 1

/-- A list of numbers is written between brackets, separated by commas. -/
def listText (numbers : List Nat) : String :=
  "[" ++ ", ".intercalate (numbers.map toString) ++ "]"

/-- A shape is written as the list of its dimensions. -/
def text (shape : Shape) : String :=
  listText shape.dims

@[simp]
theorem size_scalar : scalar.size = .ok 1 := rfl

end Shape

end Elementwise
