import Elementwise.Operation.Basic

/-!
# Element types

Scripts, sweeps and reductions are written over an arbitrary element type.
`Arithmetic` is what a per-coordinate program needs: sums, products, the two
neutral elements, and an evaluation and a differentiation rule for every
operation code.  Nothing is assumed about these functions, so everything
proved from this class holds for machine numbers as well as for a ring.

`Element` adds what buffers, reductions and constants need.  The order of the
elements is given by their position on the number line, which elements that
are not numbers do not have; both zeros of a machine format sit at the same
position.
-/

namespace Elementwise

/-- What the programs that run at one coordinate need of their elements. -/
class Arithmetic (α : Type) where
  zero : α
  one : α
  add : α → α → α
  mul : α → α → α
  /-- Whether an element is zero, of either sign. -/
  isZero : α → Bool
  /-- The value of an operation at two operands. -/
  eval : OpCode → α → α → α
  /-- The local derivatives of an operation at two operands with a value. -/
  partials : OpCode → α → α → α → α × α

/-- What buffers, reductions and constants need of their elements. -/
class Element (α : Type) extends Arithmetic α where
  sub : α → α → α
  infinity : α
  negInfinity : α
  /-- The position on the number line, unless the element is not a number. -/
  position : α → Option Int
  /-- The bit pattern by which constants are told apart. -/
  bits : α → UInt64
  /-- The number of bytes that an element occupies. -/
  byteSize : Nat

namespace Element

variable {α : Type} [Element α]

/-- The lesser of two elements; one that is not a number loses to any other. -/
def least (left right : α) : α :=
  match position left, position right with
  | none, _ => right
  | some _, none => left
  | some leftPosition, some rightPosition =>
      if rightPosition < leftPosition then right else left

/-- The greater of two elements; one that is not a number loses to any other. -/
def greatest (left right : α) : α :=
  match position left, position right with
  | none, _ => right
  | some _, none => left
  | some leftPosition, some rightPosition =>
      if leftPosition < rightPosition then right else left

/-- The position of the lesser element is the lesser position. -/
theorem position_least (left right : α) :
    position (least left right) =
      Option.merge min (position left) (position right) := by
  unfold least
  split
  next absent => simp [absent]
  next leftPosition present absent => simp [present, absent]
  next leftPosition rightPosition leftPresent rightPresent =>
    split <;> simp [leftPresent, rightPresent] <;> omega

/-- The position of the greater element is the greater position. -/
theorem position_greatest (left right : α) :
    position (greatest left right) =
      Option.merge max (position left) (position right) := by
  unfold greatest
  split
  next absent => simp [absent]
  next leftPosition present absent => simp [present, absent]
  next leftPosition rightPosition leftPresent rightPresent =>
    split <;> simp [leftPresent, rightPresent] <;> omega

end Element

/-- An array of zeros. -/
def zeros (α : Type) [Arithmetic α] (length : Nat) : Array α :=
  Array.replicate length Arithmetic.zero

@[simp]
theorem size_zeros (α : Type) [Arithmetic α] (length : Nat) :
    (zeros α length).size = length := by
  simp [zeros]

end Elementwise
