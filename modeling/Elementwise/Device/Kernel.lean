import Elementwise.Element.Basic
import Elementwise.Element.Indexing

/-!
# Programs run at every index

A kernel computes one row at each index of a launch: one element for every
output block.  It sees the whole contents of every input block as they were
before the launch, and a workspace that it may leave in any state for the
next index.
-/

namespace Elementwise

/-- A program for one index of a launch. -/
structure Kernel (α ω : Type) where
  /-- The workspace before the first index. -/
  initial : ω
  /-- The row at an index, from the inputs and the workspace. -/
  row : Nat → Array (Array α) → ω → Except Fault (Array α × ω)

namespace Kernel

variable {α ω : Type}

/--
Appends the rows of the indices from `first` on, as many as given, to those
done before.  Each index receives the workspace that the one before it left.
-/
def rowsFrom
    (kernel : Kernel α ω)
    (inputs : Array (Array α)) :
    (count first : Nat) → (done : Array (Array α)) → ω → Except Fault (Array (Array α))
  | 0, _, done, _ => .ok done
  | count + 1, first, done, workspace => do
      let (row, next) ← kernel.row first inputs workspace
      rowsFrom kernel inputs count (first + 1) (done.push row) next

/-- The rows of all indices below a length. -/
def rows
    (kernel : Kernel α ω)
    (inputs : Array (Array α))
    (length : Nat) : Except Fault (Array (Array α)) :=
  kernel.rowsFrom inputs length 0 #[] kernel.initial

/-- A kernel without a workspace. -/
def pure (row : Nat → Array (Array α) → Except Fault (Array α)) :
    Kernel α Unit where
  initial := ()
  row index inputs _ := (row index inputs).map (·, ())

end Kernel

end Elementwise
