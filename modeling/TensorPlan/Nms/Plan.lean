import TensorPlan.Nms.Inference
/-! Plans of matrix non-maximum suppression: the numbers of batches, boxes and classes, and the bounds
that the attributes set for them. -/
namespace TensorPlan

structure NmsPlan where
  attributes : NmsAttributes
  batches : Nat
  boxes : Nat
  classes : Nat
  deriving DecidableEq, Repr

namespace NmsPlan

def maxPerClass (p : NmsPlan) : Nat := p.attributes.maxPerClass p.boxes

def maxPerBatch (p : NmsPlan) : Nat := p.attributes.maxPerBatch p.boxes p.classes

def outputs (p : NmsPlan) : List Descriptor :=
  let rows := p.batches * p.maxPerBatch
  [.plain [rows, 6] .f32, .plain [rows, 1] p.attributes.indexType, .plain [p.batches] p.attributes.indexType]

def inputDims (what : String) (t : Tensor) : Result (Nat × Nat × Nat) := do
  Result.ensure (t.type == .f32 && t.format == .plain) (.nmsElements what t.type t.format)
  match t.dims with
  | [a, b, c] => return (a, b, c)
  | dims => .fail (.nmsRank what 3 dims)

def ofInputs (a : NmsAttributes) (inputs : List Tensor) : Result NmsPlan := do
  match inputs with
  | boxes :: scores :: _ =>
    let (batches, count, width) ← inputDims "boxes" boxes
    let (scoreBatches, classes, scoreCount) ← inputDims "scores" scores
    Result.ensure (width == 4 && scoreBatches == batches && scoreCount == count) (.nmsShapes boxes.dims scores.dims)
    return ⟨a, batches, count, classes⟩
  | _ => .fail (.nmsInputs inputs.length)

end NmsPlan
end TensorPlan
