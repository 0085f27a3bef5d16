import TensorPlan.Dispatch.Kernel
import TensorPlan.Plan.Planning
import TensorPlan.Pad.Rows
import TensorPlan.Pad.Elements
import TensorPlan.Broadcast.Execution
import TensorPlan.Reorder.Execution
import TensorPlan.Nms.Execution
import TensorPlan.GatherTree.Execution
/-! The kernels that come with the library: for padding, broadcasting and reordering a fast one and
one that works element by element, for the other operators one each. -/
namespace TensorPlan

inductive BuiltinKernel where
  | padRows
  | padElements
  | broadcastBlocks
  | broadcastElements
  | reorderSpans
  | reorderElements
  | matrixNms
  | gatherTree
  deriving DecidableEq, Repr

namespace BuiltinKernel

def all : List BuiltinKernel :=
  [padRows, padElements, broadcastBlocks, broadcastElements, reorderSpans, reorderElements, matrixNms, gatherTree]

def name : BuiltinKernel → String
  | padRows => "pad_opt"
  | padElements => "pad_ref"
  | broadcastBlocks => "broadcast_opt"
  | broadcastElements => "broadcast_ref"
  | reorderSpans => "reorder_opt"
  | reorderElements => "reorder_ref"
  | matrixNms => "matrix_nms_ref"
  | gatherTree => "gather_tree_ref"

def ofName? (s : String) : Option BuiltinKernel := all.find? fun k => k.name == s

def kind : BuiltinKernel → OperatorKind
  | padRows | padElements => .pad
  | broadcastBlocks | broadcastElements => .broadcast
  | reorderSpans | reorderElements => .reorder
  | matrixNms => .matrixNms
  | gatherTree => .gatherTree

def isReference : BuiltinKernel → Bool
  | padRows | broadcastBlocks | reorderSpans => false
  | _ => true

def padRowsSupports (p : KernelParams) : Bool :=
  match p.attributes, p.inputs with
  | .pad a, input :: _ =>
    match input.format.blockSize? with
    | none => true
    | some block =>
      match input.shape.dim 1, a.before, a.after with
      | .known channels, some (_ :: b :: _), some (_ :: e :: _) =>
        let unit :=
          if a.mode = .constant then b % (block : Int) == 0 && e % (block : Int) == 0 else b == 0 && e == 0
        channels % block == 0 && unit
      | _, _, _ => false
  | _, _ => false

def supports : BuiltinKernel → KernelParams → Bool
  | padRows, p => padRowsSupports p
  | _, _ => true

variable [Widths]

def plan (k : BuiltinKernel) (attributes : Attributes) (inputs : List Tensor) (context : PlanContext) :
    Result ExecutionPlan :=
  match k, attributes with
  | padRows, .pad a => a.plan inputs context
  | padElements, .pad a => a.planElements inputs context
  | broadcastBlocks, .broadcast a => a.plan inputs context
  | broadcastElements, .broadcast a => a.planElements inputs context
  | reorderSpans, .reorder a => a.plan inputs context
  | reorderElements, .reorder a => a.planElements inputs
  | matrixNms, .matrixNms a => a.plan inputs context
  | gatherTree, .gatherTree => GatherTree.plan inputs context
  | _, _ => .fail (.wrongAttributes k.name attributes.kind)

def execute : BuiltinKernel → Schedule → ExecutionPlan → List Tensor → Run Unit
  | padRows, _ => PadPlan.execute
  | padElements, _ => PadRequest.execute
  | broadcastBlocks, _ => BroadcastPlan.executeBlocks
  | broadcastElements, _ => BroadcastPlan.executeElements
  | reorderSpans, _ => ReorderPlan.execute
  | reorderElements, _ => ReorderPlan.executeElements
  | matrixNms, _ => NmsPlan.execute
  | gatherTree, s => GatherTreePlan.execute s

def kernel (k : BuiltinKernel) : Kernel := ⟨k.name, k.kind, k.isReference, k.supports, k.plan, k.execute⟩

end BuiltinKernel
end TensorPlan
