import Elementwise.Element.Basic

/-!
# Reductions

A reduction combines the elements along an axis to one.  The sum and the
product are taken in the arithmetic of the elements, the least and the
greatest element by position on the number line.
-/

namespace Elementwise

/-- The ways of combining elements. -/
inductive Reduction where
  | sum
  | prod
  | min
  | max
deriving DecidableEq, Repr, Inhabited

namespace Reduction

variable {α : Type} [Element α]

/-- Two elements combined to one. -/
def combine (reduction : Reduction) (left right : α) : α :=
  match reduction with
  | sum => Arithmetic.add left right
  | prod => Arithmetic.mul left right
  | min => Element.least left right
  | max => Element.greatest left right

/-- The result of reducing no elements. -/
def identity : Reduction → α
  | sum => Arithmetic.zero
  | prod => Arithmetic.one
  | min => Element.infinity
  | max => Element.negInfinity

/-- The elements of a list combined from the left, starting with the identity. -/
def fold (reduction : Reduction) (values : List α) : α :=
  values.foldl reduction.combine reduction.identity

end Reduction

end Elementwise
