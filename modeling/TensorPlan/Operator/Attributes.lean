import TensorPlan.Operator.Kind
import TensorPlan.Pad.Attributes
import TensorPlan.Broadcast.Attributes
import TensorPlan.Reorder.Attributes
import TensorPlan.Nms.Attributes
/-! The attributes of one node, in the form that its operator works with. -/
namespace TensorPlan

inductive Attributes where
  | gatherTree
  | pad (attributes : PadAttributes)
  | broadcast (attributes : BroadcastAttributes)
  | reorder (attributes : ReorderAttributes)
  | matrixNms (attributes : NmsAttributes)
  deriving DecidableEq, Repr

namespace Attributes

def kind : Attributes → OperatorKind
  | gatherTree => .gatherTree
  | pad _ => .pad
  | broadcast _ => .broadcast
  | reorder _ => .reorder
  | matrixNms _ => .matrixNms

def describe : Attributes → String
  | gatherTree => "GatherTree"
  | pad a => Text.applied "Pad" [a.describe]
  | broadcast a => Text.applied "Broadcast" [a.describe]
  | reorder a => Text.applied "Reorder" [a.describe]
  | matrixNms a => Text.applied "MatrixNms" [a.describe]

def dataDependent? : Attributes → Option Bool
  | pad a => some a.isDataDependent
  | broadcast a => some a.isDataDependent
  | _ => none

end Attributes
end TensorPlan
