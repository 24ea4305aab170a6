import Elementwise.Buffer.Access
import Elementwise.Config
import Elementwise.Reduction.Layout

/-!
# Reduction in passes

An axis is reduced in passes.  Each pass cuts the axis into runs of a fixed
number of entries, the last of which may be shorter, and folds every run from
the left to one entry.  The passes end when a single entry is left; there is
always at least one.  The first pass reads its elements through a source, so
that they need not be stored anywhere; every later pass reads the result of
the one before.

On lists, `treeFold` says what comes out at each place.
-/

namespace Elementwise

/-- A list cut into runs of a given length, the last of which may be shorter. -/
def runsOf {α : Type} (length : Nat) (values : List α) : List (List α) :=
  if values.length ≤ length ∨ length = 0 then
    if values.isEmpty then [] else [values]
  else
    values.take length :: runsOf length (values.drop length)
termination_by values.length
decreasing_by simp only [List.length_drop]; omega

/-- A non-empty run folded from the left. -/
def foldRun? {α : Type} (combine : α → α → α) : List α → Option α
  | [] => none
  | first :: rest => some (rest.foldl combine first)

/-- One pass over a list: its runs, each folded to one element. -/
def foldPass {α : Type} (combine : α → α → α) (length : Nat) (values : List α) : List α :=
  (runsOf length values).filterMap (foldRun? combine)

/-- As many passes over a list as it takes to leave one element, at most a given number. -/
def foldPasses {α : Type} (combine : α → α → α) (length : Nat) : Nat → List α → List α
  | 0, values => values
  | passes + 1, values =>
      if values.length ≤ 1 then values
      else foldPasses combine length passes (foldPass combine length values)

/-- The fold of a list in passes, the first of which is always made. -/
def treeFold {α : Type} (combine : α → α → α) (length : Nat) (values : List α) : List α :=
  foldPasses combine length values.length (foldPass combine length values)

variable {α ω : Type} [Arithmetic α]

/-- Where a pass finds its elements: by their number, from the inputs of a launch. -/
abbrev Source (α ω : Type) := Nat → Array (Array α) → ω → Except Fault (α × ω)

/-- The elements of the first input. -/
def firstInput (index : Nat) (inputs : Array (Array α)) (workspace : Unit) :
    Except Fault (α × Unit) := do
  return (← elementAt (← elementAt inputs 0) index, workspace)

namespace AxisLayout

/-- Folds entries along the axis onto one that is folded already. -/
def foldEntries
    (layout : AxisLayout)
    (combine : α → α → α)
    (source : Source α ω)
    (inputs : Array (Array α))
    (before behind : Nat) :
    (count along : Nat) → α → ω → Except Fault (α × ω)
  | 0, _, folded, workspace => .ok (folded, workspace)
  | count + 1, along, folded, workspace => do
      let index ← layout.offset before along behind
      let (value, workspace) ← source index inputs workspace
      foldEntries layout combine source inputs before behind count (along + 1)
        (combine folded value) workspace

/-- The kernel of one pass, whose only column is the folded runs. -/
def passKernel
    (layout : AxisLayout)
    (fanIn : Nat)
    (combine : α → α → α)
    (initial : ω)
    (source : Source α ω) : Kernel α ω where
  initial := initial
  row index inputs workspace := do
    let runs := Size.runs layout.length fanIn
    let behind := index % layout.inner
    let before := index / layout.inner / runs
    let run := index / layout.inner % runs
    let first ← Size.mul run fanIn
    let last := min (← Size.add first fanIn) layout.length
    let (value, workspace) ←
      source (← layout.offset before first behind) inputs workspace
    let (folded, workspace) ←
      layout.foldEntries combine source inputs before behind
        (last - (first + 1)) (first + 1) value workspace
    return (#[folded], workspace)

/-- Folds the runs of an axis into a block. -/
def launchPass
    (layout : AxisLayout)
    (fanIn : Nat)
    (combine : α → α → α)
    (initial : ω)
    (source : Source α ω)
    (inputs : List Block)
    (output : Block) : Store.Action α Unit := do
  let length ← Store.check (Size.lift (layout.sizeAlong (Size.runs layout.length fanIn)))
  Store.perform
    (Accelerator.launch length inputs [output]
      (layout.passKernel fanIn combine initial source))

/-- A new buffer for the runs of an axis. -/
def allocateRuns (layout : AxisLayout) (fanIn : Nat) : Store.Action α BufferId := do
  let length ← Store.check (Size.lift (layout.sizeAlong (Size.runs layout.length fanIn)))
  Store.allocate length

/-- The first pass, which reads its elements through a source. -/
def firstPass
    (layout : AxisLayout)
    (fanIn : Nat)
    (combine : α → α → α)
    (inputs : List Block)
    (initial : ω)
    (source : Source α ω) : Store.Action α BufferId := do
  let output ← layout.allocateRuns fanIn
  (Store.withLease output .accelerator do
    layout.launchPass fanIn combine initial source inputs (← Store.blockOf output))
      |>.unlessDone (·.drop output)
  return output

/-- A later pass, which reads the result of the pass before and gives it up. -/
def nextPass
    (layout : AxisLayout)
    (fanIn : Nat)
    (combine : α → α → α)
    (current : BufferId) : Store.Action α BufferId := do
  let output ← layout.allocateRuns fanIn
  (do
    Store.withLease current .accelerator do
      Store.withLease output .accelerator do
        layout.launchPass fanIn combine () firstInput
          [← Store.blockOf current] (← Store.blockOf output)
    Store.release current : Store.Action α Unit)
      |>.unlessDone (·.drop output)
  return output

/-- The passes that are left when an axis has become as long as the layout says. -/
def laterPasses
    (layout : AxisLayout)
    (fanIn : Nat)
    (long : 2 ≤ fanIn)
    (combine : α → α → α)
    (current : BufferId) : Store.Action α BufferId :=
  if 1 < layout.length then do
    let next ← (layout.nextPass fanIn combine current).unlessDone (·.drop current)
    modify (·.drop current)
    laterPasses { layout with length := Size.runs layout.length fanIn }
      fanIn long combine next
  else
    pure current
termination_by layout.length
decreasing_by exact Size.runs_lt ‹1 < layout.length› long

/--
Reduces the axis of a layout to a single entry.  The result is a new buffer
with one element for each place besides the axis.
-/
def treeReduce
    (layout : AxisLayout)
    (fanIn : Nat)
    (combine : α → α → α)
    (inputs : List Block)
    (initial : ω)
    (source : Source α ω) : Store.Action α BufferId := do
  let width := max fanIn Config.minFanIn
  let first ← layout.firstPass width combine inputs initial source
  laterPasses { layout with length := Size.runs layout.length width }
    width (Nat.le_max_right ..) combine first

end AxisLayout

/-- Reads a buffer for the last time. -/
def Store.take (buffer : BufferId) : Store.Action α (Array α) :=
  (do
    let values ← Store.read buffer
    Store.release buffer
    return values : Store.Action α (Array α))
      |>.followedBy (·.drop buffer)

end Elementwise
