import Elementwise.Element.Basic
import Elementwise.Operation.Calculus

/-!
# Machine numbers as elements

Double and single precision numbers are element types.  Their operations are
those of the machine, composed as `OpCode.eval` and `OpCode.partials` say.

A bit pattern of either format holds a sign bit above a magnitude, and
magnitudes are ordered like the numbers they stand for.  The signed magnitude
is therefore a position on the number line at which the two zeros meet.
-/

namespace Elementwise

/-- The integer with a given magnitude, negated if a sign bit stands above it. -/
def signedMagnitude (signBit pattern : Nat) : Int :=
  if pattern < signBit then pattern else -((pattern - signBit : Nat) : Int)

instance : RealFunctions Float where
  zero := 0.0
  one := 1.0
  add := (· + ·)
  sub := (· - ·)
  mul := (· * ·)
  div := (· / ·)
  pow := Float.pow
  neg := (- ·)
  log := Float.log
  exp := Float.exp
  tanh := Float.tanh
  isPositive value := 0.0 < value

instance : Element Float where
  zero := 0.0
  one := 1.0
  add := (· + ·)
  mul := (· * ·)
  isZero value := value == 0.0
  eval := OpCode.eval
  partials := OpCode.partials
  sub := (· - ·)
  infinity := 1.0 / 0.0
  negInfinity := -1.0 / 0.0
  position value :=
    if value.isNaN then none
    else some (signedMagnitude 0x8000000000000000 value.toBits.toNat)
  bits := Float.toBits
  byteSize := 8

instance : RealFunctions Float32 where
  zero := 0.0
  one := 1.0
  add := (· + ·)
  sub := (· - ·)
  mul := (· * ·)
  div := (· / ·)
  pow := Float32.pow
  neg := (- ·)
  log := Float32.log
  exp := Float32.exp
  tanh := Float32.tanh
  isPositive value := 0.0 < value

instance : Element Float32 where
  zero := 0.0
  one := 1.0
  add := (· + ·)
  mul := (· * ·)
  isZero value := value == 0.0
  eval := OpCode.eval
  partials := OpCode.partials
  sub := (· - ·)
  infinity := 1.0 / 0.0
  negInfinity := -1.0 / 0.0
  position value :=
    if value.isNaN then none
    else some (signedMagnitude 0x80000000 value.toBits.toNat)
  bits value := value.toBits.toUInt64
  byteSize := 4

end Elementwise
