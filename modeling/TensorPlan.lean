import TensorPlan.Numeric.Rounding
import TensorPlan.Numeric.Binary
import TensorPlan.Numeric.Decimal
import TensorPlan.Layout.Basic
import TensorPlan.Shape.Basic
import TensorPlan.Text.Quoted
import TensorPlan.Element.Bytes
import TensorPlan.Element.Conversion
import TensorPlan.Tensor.Basic
import TensorPlan.Broadcast.Attributes
import TensorPlan.Dispatch.Key
import TensorPlan.Graph.Attribute
import TensorPlan.Nms.Attributes
import TensorPlan.Operator.Attributes
import TensorPlan.Text.Case
import TensorPlan.Error
import TensorPlan.Graph.Node
import TensorPlan.Tensor.Grid
import TensorPlan.Broadcast.Alignment
import TensorPlan.Broadcast.Inference
import TensorPlan.GatherTree.Inference
import TensorPlan.Nms.Inference
import TensorPlan.Operator.Inference
import TensorPlan.Operator.Registry
import TensorPlan.Broadcast.Plan
import TensorPlan.GatherTree.Plan
import TensorPlan.Nms.Plan
import TensorPlan.Pad.Plan
import TensorPlan.Plan.Basic
import TensorPlan.Plan.Planning
import TensorPlan.Broadcast.Execution
import TensorPlan.GatherTree.Execution
import TensorPlan.Nms.Execution
import TensorPlan.Pad.Elements
import TensorPlan.Pad.Rows
import TensorPlan.Reorder.Execution
import TensorPlan.Dispatch.Builtin
import TensorPlan.Dispatch.Device
import TensorPlan.Dispatch.Registry
import TensorPlan.Tuning.Cache
import TensorPlan.Json.Reader
import TensorPlan.Json.Writer
import TensorPlan.Dispatch.Selector
import TensorPlan.Json.Forms
import TensorPlan.Session.Engine
import TensorPlan.Proofs.Computation
import TensorPlan.Proofs.RowMajor
import TensorPlan.Proofs.Items
import TensorPlan.Proofs.Encoding
import TensorPlan.Proofs.Tiling
import TensorPlan.Proofs.Positions
import TensorPlan.Proofs.Operator.Slots
import TensorPlan.Proofs.Pad.Agreement
import TensorPlan.Proofs.Broadcast.Agreement
import TensorPlan.Proofs.Reorder.Agreement
import TensorPlan.Proofs.Nms.Execution
import TensorPlan.Proofs.GatherTree.Execution
import TensorPlan.Proofs.Dispatch.Lasting
import TensorPlan.Proofs.Dispatch.Outcomes
import TensorPlan.Proofs.Dispatch.Likeness
import TensorPlan.Proofs.Dispatch.Selection
import TensorPlan.Proofs.Session.History
import TensorPlan.Proofs.Session.Transparency
import TensorPlan.Proofs.Splitting
import TensorPlan.Proofs.Dispatch.Teams
import TensorPlan.Proofs.Layout.Bijection
import TensorPlan.Proofs.Elements
import TensorPlan.Proofs.Operator.Monotone
import TensorPlan.Proofs.Dispatch.Foreseen
import TensorPlan.Proofs.Tuning.Flat
import TensorPlan.Proofs.Dispatch.Registration
import TensorPlan.Proofs.Dispatch.Safety
import TensorPlan.Proofs.Tuning.Stability
import TensorPlan.Proofs.Dispatch.Repetition
import TensorPlan.Proofs.Json.Tokens
import TensorPlan.Proofs.Json.Written
import TensorPlan.Proofs.Numeric.Finite
import TensorPlan.Proofs.Tuning.Saved
import TensorPlan.Proofs.Tuning.Unsaved
import TensorPlan.Proofs.Patching
import TensorPlan.Proofs.Tails
import TensorPlan.Proofs.Dispatch.Contents
import TensorPlan.Proofs.Dispatch.Pipeline
import TensorPlan.Proofs.Interruption
import TensorPlan.Proofs.Dispatch.Atomicity
import TensorPlan.Proofs.Pad.Continuation
import TensorPlan.Proofs.Broadcast.Replication
import TensorPlan.Proofs.GatherTree.Backtracking
import TensorPlan.Proofs.Nms.Blocks
import TensorPlan.Proofs.Nms.Choice
import TensorPlan.Proofs.Nms.Isolation
import TensorPlan.Proofs.Reorder.Conversion
import TensorPlan.Proofs.Reorder.RoundTrip
import TensorPlan.Proofs.Element.Projection
import TensorPlan.Proofs.Dispatch.Growth
import TensorPlan.Proofs.Dispatch.Ordering
import TensorPlan.Proofs.Numeric.Spacing
import TensorPlan.Proofs.Element.Carried
import TensorPlan.Proofs.GatherTree.Integers
import TensorPlan.Proofs.Dispatch.Integers
import TensorPlan.Proofs.Shape.Join
import TensorPlan.Proofs.Shares
import TensorPlan.Proofs.Pad.Composition
import TensorPlan.Proofs.Numeric.Shortest
import TensorPlan.Proofs.Numeric.Text
import TensorPlan.Proofs.Text.Separation
import TensorPlan.Proofs.Operator.Described
import TensorPlan.Proofs.Dispatch.Normalized
import TensorPlan.Proofs.Broadcast.Transitivity
import TensorPlan.Proofs.Element.Saturation
import TensorPlan.Proofs.Stepping
import TensorPlan.Proofs.Tensor.Buffers
