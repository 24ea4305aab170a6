import Elementwise.Element.Basic

/-!
# Integers as elements

On integers every sum and every product is exact, and a whole run of the
library can be evaluated inside a proof.  Operations that lead out of the
integers count as zero, with zero slopes.
-/

namespace Elementwise

instance : Element Int where
  zero := 0
  one := 1
  add := (· + ·)
  mul := (· * ·)
  isZero value := value == 0
  eval
    | .copy, left, _ => left
    | .add, left, right => left + right
    | .sub, left, right => left - right
    | .mul, left, right => left * right
    | .neg, left, _ => -left
    | .relu, left, _ => max left 0
    | _, _, _ => 0
  partials
    | .copy, _, _, _ => (1, 0)
    | .add, _, _, _ => (1, 1)
    | .sub, _, _, _ => (1, -1)
    | .mul, left, right, _ => (right, left)
    | .neg, _, _, _ => (-1, 0)
    | .relu, left, _, _ => (if 0 < left then 1 else 0, 0)
    | _, _, _, _ => (0, 0)
  sub := (· - ·)
  infinity := 0x8000000000000000
  negInfinity := -0x8000000000000000
  position := some
  bits := UInt64.ofInt
  byteSize := 8

end Elementwise
