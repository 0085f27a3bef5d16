import TensorPlan.Plan.Partition
import TensorPlan.Pad.Plan
import TensorPlan.Broadcast.Plan
import TensorPlan.Reorder.Plan
import TensorPlan.Nms.Plan
import TensorPlan.GatherTree.Plan
/-! Execution plans: the descriptors of inputs and outputs, the split of the work, and what the
operator needs. A plan that depends on descriptors alone can be kept for other inputs that have them. -/
namespace TensorPlan

inductive Validity where
  | lasting
  | single
  deriving DecidableEq, Repr

namespace Validity

def ofLasting (lasting : Bool) : Validity := if lasting then .lasting else .single

def text : Validity → String
  | lasting => "static"
  | single => "per_invocation"

end Validity

inductive PlanBody where
  | pad (plan : PadPlan)
  | padElements (request : PadRequest)
  | broadcast (plan : BroadcastPlan)
  | reorder (plan : ReorderPlan)
  | matrixNms (plan : NmsPlan)
  | gatherTree (plan : GatherTreePlan)
  deriving DecidableEq, Repr

def PlanBody.variant : PlanBody → Nat
  | pad _ => 0
  | padElements _ => 1
  | broadcast _ => 2
  | reorder _ => 3
  | matrixNms _ => 4
  | gatherTree _ => 5

structure ExecutionPlan where
  inputs : List Descriptor
  outputs : List Descriptor
  validity : Validity
  partition : Partition
  body : PlanBody
  deriving DecidableEq, Repr

namespace ExecutionPlan

def isReusableFor (p : ExecutionPlan) (inputs : List Tensor) : Bool :=
  p.validity == .lasting && p.inputs == inputs.map Tensor.descriptor

end ExecutionPlan
end TensorPlan
