import TensorPlan.Dispatch.Params
import TensorPlan.Run.Basic
/-! Kernels: implementations of one operator, which plan for given inputs and run their plans. -/
namespace TensorPlan

structure Kernel where
  name : String
  kind : OperatorKind
  isReference : Bool
  supports : KernelParams → Bool
  plan : Attributes → List Tensor → PlanContext → Result ExecutionPlan
  execute : Schedule → ExecutionPlan → List Tensor → Run Unit

end TensorPlan
