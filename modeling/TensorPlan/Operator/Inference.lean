import TensorPlan.Pad.Inference
import TensorPlan.Broadcast.Inference
import TensorPlan.Reorder.Inference
import TensorPlan.Nms.Inference
import TensorPlan.GatherTree.Inference
/-! Shape inference over all operators: typed attributes of a node, output shapes and output slots. -/
namespace TensorPlan.Attributes

def ofNode [Widths] (kind : OperatorKind) (n : Node) : Result Attributes :=
  match kind with
  | .gatherTree => .ok gatherTree
  | .pad => return pad (← PadAttributes.ofNode n)
  | .broadcast => return broadcast (← BroadcastAttributes.ofNode n)
  | .reorder => return reorder (← ReorderAttributes.ofNode n)
  | .matrixNms => return matrixNms (← NmsAttributes.ofNode n)

def shapes (a : Attributes) (inputs : List Shape) : Result (List Shape) :=
  match a with
  | gatherTree => GatherTree.shapes inputs
  | pad a => a.shapes inputs
  | broadcast a => a.shapes inputs
  | reorder a => a.shapes inputs
  | matrixNms a => a.shapes inputs

def slotsLikeFirst (a : Attributes) (inputs : List Slot) : Result (List Slot) := do
  let first ← Result.ofOption (.noInputs a.kind) inputs.head?
  return (← a.shapes (inputs.map Slot.shape)).map fun shape => Slot.ofShape shape first.type first.format

def slots (a : Attributes) (inputs : List Slot) : Result (List Slot) :=
  match a with
  | gatherTree | pad _ => a.slotsLikeFirst inputs
  | broadcast a => a.slots inputs
  | reorder a => a.slots inputs
  | matrixNms a => a.slots inputs

end TensorPlan.Attributes
