import Elementwise.Operation.Basic

/-!
# Values and local derivatives of the operations

Over any type with the functions of `RealFunctions`, every operation code has
a value at two operands and a pair of local derivatives, one for each
operand.  Unary operations ignore the right operand, and their second
derivative is zero.

The derivatives are given the value of the operation as well, because those
of the exponential, of the logistic function and of the hyperbolic tangent
are cheapest in terms of it.  At the corner of `relu` the derivative is zero.
-/

namespace Elementwise

/-- The functions of real variables out of which the operations are built. -/
class RealFunctions (α : Type) where
  zero : α
  one : α
  add : α → α → α
  sub : α → α → α
  mul : α → α → α
  div : α → α → α
  pow : α → α → α
  neg : α → α
  log : α → α
  exp : α → α
  tanh : α → α
  /-- Whether a value is greater than zero. -/
  isPositive : α → Bool

namespace OpCode

open RealFunctions

/-- The value of an operation at its operands. -/
def eval
    {α : Type}
    [RealFunctions α]
    (opcode : OpCode)
    (left right : α) : α :=
  match opcode with
  | .copy => left
  | .add => RealFunctions.add left right
  | .sub => RealFunctions.sub left right
  | .mul => RealFunctions.mul left right
  | .div => RealFunctions.div left right
  | .pow => RealFunctions.pow left right
  | .neg => RealFunctions.neg left
  | .log => RealFunctions.log left
  | .exp => RealFunctions.exp left
  | .relu => if isPositive left then left else zero
  | .sigmoid =>
      RealFunctions.div one
        (RealFunctions.add one (RealFunctions.exp (RealFunctions.neg left)))
  | .tanh => RealFunctions.tanh left

/--
The derivatives of an operation with respect to its left and right operand,
given the operands and the value of the operation at them.
-/
def partials
    {α : Type}
    [RealFunctions α]
    (opcode : OpCode)
    (left right value : α) : α × α :=
  match opcode with
  | .copy => (one, zero)
  | .add => (one, one)
  | .sub => (one, RealFunctions.neg one)
  | .mul => (right, left)
  | .div =>
      let inverse := RealFunctions.div one right
      (inverse,
        RealFunctions.mul
          (RealFunctions.mul (RealFunctions.neg left) inverse) inverse)
  | .pow =>
      (RealFunctions.mul right
          (RealFunctions.pow left (RealFunctions.sub right one)),
        RealFunctions.mul value (RealFunctions.log left))
  | .neg => (RealFunctions.neg one, zero)
  | .log => (RealFunctions.div one left, zero)
  | .exp => (value, zero)
  | .relu => (if isPositive left then one else zero, zero)
  | .sigmoid => (RealFunctions.mul value (RealFunctions.sub one value), zero)
  | .tanh =>
      (RealFunctions.sub one (RealFunctions.mul value value), zero)

end OpCode

end Elementwise
