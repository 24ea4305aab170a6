/-!
# Slots

The records of a script communicate through slots.  A data slot is the
content of one input, a cache slot is a scratch value that lives for one
coordinate, and the output slot is the result.
-/

namespace Elementwise

/-- Where a record finds an operand or leaves its result. -/
inductive Slot where
  | data (index : Nat)
  | cache (index : Nat)
  | output
deriving DecidableEq, Repr, Inhabited

namespace Slot

/-- Slots are written `d0`, `c0` and `out`. -/
def text : Slot → String
  | data index => s!"d{index}"
  | cache index => s!"c{index}"
  | output => "out"

end Slot

end Elementwise
