/-!
# Memory tiers

The contents of a buffer live on one tier at a time: in host memory, on the
accelerator, or nowhere as long as nothing has been stored.
-/

namespace Elementwise

/-- Where the contents of a buffer are held. -/
inductive Tier where
  /-- Nothing is stored yet, or everything was released. -/
  | empty
  | host
  | accelerator
deriving DecidableEq, Repr, Inhabited

namespace Tier

/-- The name of a tier in messages. -/
def title : Tier → String
  | empty => "Empty"
  | host => "Host"
  | accelerator => "Accelerator"

end Tier

/-- Names a buffer; identifiers are given out in increasing order. -/
structure BufferId where
  index : Nat
deriving DecidableEq, Repr, Inhabited

namespace BufferId

/-- A buffer is written as `buf` and its index. -/
def text (buffer : BufferId) : String :=
  s!"buf{buffer.index}"

end BufferId

end Elementwise
