import Elementwise.Element.Float
import Elementwise.Script.Validity
import Elementwise.Buffer.Session
import Elementwise.Graph.Session
import Elementwise.Graph.Meaning
import Elementwise.Proofs.Action
import Elementwise.Proofs.Agreement
import Elementwise.Proofs.Table
import Elementwise.Proofs.Size
import Elementwise.Proofs.Element.Position
import Elementwise.Proofs.Shape.Index
import Elementwise.Proofs.Shape.Broadcast
import Elementwise.Proofs.Device.Launch
import Elementwise.Proofs.Device.Pool
import Elementwise.Proofs.Device.Accounting
import Elementwise.Proofs.Buffer.Frame
import Elementwise.Proofs.Buffer.Change
import Elementwise.Proofs.Buffer.Migration
import Elementwise.Proofs.Buffer.Access
import Elementwise.Proofs.Buffer.Launch
import Elementwise.Proofs.Buffer.Accounting
import Elementwise.Proofs.Buffer.Upkeep
import Elementwise.Proofs.Buffer.Session
import Elementwise.Proofs.Buffer.Balance
import Elementwise.Proofs.Element.Integers
import Elementwise.Proofs.Graph.Order
import Elementwise.Proofs.Script.Validity
import Elementwise.Proofs.Script.Allocation
import Elementwise.Proofs.Script.Placement
import Elementwise.Proofs.Script.Evaluation
import Elementwise.Proofs.Script.Forward
import Elementwise.Proofs.Reduction.Pass
import Elementwise.Proofs.Reduction.Tree
import Elementwise.Proofs.Reduction.Fold
import Elementwise.Proofs.Graph.Arena
import Elementwise.Proofs.Graph.Invalidation
import Elementwise.Proofs.Graph.Validity
import Elementwise.Proofs.Graph.Coherence
import Elementwise.Proofs.Graph.Construction
import Elementwise.Proofs.Graph.Evaluation
import Elementwise.Proofs.Graph.Preservation
import Elementwise.Proofs.Graph.Ownership
import Elementwise.Proofs.Graph.Training
import Elementwise.Proofs.Graph.Session
import Elementwise.Proofs.Graph.Reduction
import Elementwise.Proofs.Graph.Backpropagation
import Elementwise.Proofs.Graph.Interruption
import Elementwise.Proofs.Gradient.Plan
import Elementwise.Proofs.Gradient.Forward
import Elementwise.Proofs.Gradient.Sweep
import Elementwise.Proofs.Gradient.Adjoint
import Elementwise.Proofs.Gradient.Interpretation
import Elementwise.Proofs.Gradient.Accumulation
import Elementwise.Proofs.Gradient.Room
import Elementwise.Proofs.Buffer.Quota
import Elementwise.Proofs.Buffer.Room
import Elementwise.Proofs.Buffer.Recency
import Elementwise.Proofs.Buffer.Eviction
import Elementwise.Proofs.Graph.Upkeep
import Elementwise.Proofs.Reduction.Room
import Elementwise.Proofs.Script.Room
import Elementwise.Proofs.Graph.Lasting
import Elementwise.Proofs.Graph.Interning
import Elementwise.Proofs.Graph.Room
import Elementwise.Proofs.Buffer.Agreement
import Elementwise.Proofs.Gradient.Agreement
import Elementwise.Proofs.Graph.Agreement
import Elementwise.Proofs.Buffer.Pinning
import Elementwise.Proofs.Buffer.Allocation
import Elementwise.Proofs.Buffer.Holding
import Elementwise.Proofs.Gradient.Holding
import Elementwise.Proofs.Graph.Holding
import Elementwise.Proofs.Reduction.Bounds
import Elementwise.Proofs.Graph.Representation
import Elementwise.Proofs.Simulation
import Elementwise.Proofs.Buffer.Simulation
import Elementwise.Proofs.Buffer.Shift
import Elementwise.Proofs.Device.Shift
import Elementwise.Proofs.Gradient.Simulation
import Elementwise.Proofs.Graph.Renaming
import Elementwise.Proofs.Graph.Simulation
import Elementwise.Proofs.Graph.Clearing
import Elementwise.Proofs.Script.Liveness
import Elementwise.Proofs.Script.Pointwise
import Elementwise.Proofs.Gradient.Resolution
import Elementwise.Proofs.Graph.Compilation
import Elementwise.Proofs.Following
import Elementwise.Proofs.Buffer.Following
import Elementwise.Proofs.Buffer.Fitting
import Elementwise.Proofs.Script.Following
import Elementwise.Proofs.Reduction.Following
import Elementwise.Proofs.Graph.Following
import Elementwise.Proofs.Graph.Resumption
import Elementwise.Proofs.Graph.Fitting
import Elementwise.Proofs.Graph.Repetition
import Elementwise.Proofs.Operation.Derivative
import Elementwise.Proofs.Graph.Recompilation
import Elementwise.Proofs.Graph.Standing
import Elementwise.Proofs.Graph.Overwriting
import Elementwise.Proofs.Graph.Leaves
import Elementwise.Proofs.Graph.Constants
import Elementwise.Proofs.Reduction.Selection
import Elementwise.Proofs.Graph.Broadcasting
import Elementwise.Device.Fleet
import Elementwise.Proofs.Device.Isolation
import Elementwise.Proofs.Graph.Release
import Elementwise.Proofs.Buffer.Reporting
import Elementwise.Proofs.Reduction.Reporting
import Elementwise.Proofs.Gradient.Reporting
import Elementwise.Proofs.Graph.Overflow
import Elementwise.Proofs.Graph.Reporting
