import TensorPlan.Graph.Node
import TensorPlan.Operator.Check
/-! Matrix non-maximum suppression before a run. The inputs are boxes of shape `[batches, boxes, 4]`
and scores of shape `[batches, classes, boxes]`; the outputs are the selected rows, their box indices
and the number of boxes of each batch. -/
namespace TensorPlan.NmsAttributes

def checked (a : NmsAttributes) : Result NmsAttributes :=
  if a.indexType = .i32 ∨ a.indexType = .i64 then .ok a else .fail (.nmsIndexType a.indexType)

def ofNode (n : Node) : Result NmsAttributes := do
  let sortResult ← n.word? "sort_result_type" "sort_result_type" SortResult.ofText?
  let decay ← n.word? "decay_function" "decay_function" DecayFunction.ofText?
  let indexType ← n.word? "output_type" "output_type" ElementType.ofText?
  let sortAcrossBatches ← n.bool? "sort_result_across_batch"
  let scoreThreshold ← n.float? "score_threshold"
  let candidatesPerClass ← n.int? "nms_top_k"
  let boxesPerBatch ← n.int? "keep_top_k"
  let background ← n.int? "background_class"
  let sigma ← n.float? "gaussian_sigma"
  let postThreshold ← n.float? "post_threshold"
  let normalized ← n.bool? "normalized"
  let dynamicOutput ← n.bool? "dynamic_output"
  checked
    { sortResult := sortResult.getD unset.sortResult
      sortAcrossBatches := sortAcrossBatches.getD unset.sortAcrossBatches
      indexType := indexType.getD unset.indexType
      scoreThreshold := scoreThreshold.getD unset.scoreThreshold
      candidatesPerClass := candidatesPerClass.getD unset.candidatesPerClass
      boxesPerBatch := boxesPerBatch.getD unset.boxesPerBatch
      background := background.getD unset.background
      decay := decay.getD unset.decay
      sigma := sigma.getD unset.sigma
      postThreshold := postThreshold.getD unset.postThreshold
      normalized := normalized.getD unset.normalized
      dynamicOutput := dynamicOutput.getD unset.dynamicOutput }

def rows (a : NmsAttributes) (batches boxes classes : Dimension) : Dimension :=
  match a.dynamicOutput, batches, boxes, classes with
  | false, .known b, .known n, .known c => .known (b * a.maxPerBatch n c)
  | _, _, _, _ => .unknown

def shapes (a : NmsAttributes) (inputs : List Shape) : Result (List Shape) := do
  Check.inputCount .matrixNms inputs.length 2 2
  let boxes ← Result.orFault inputs[0]?
  let scores ← Result.orFault inputs[1]?
  Check.rank .matrixNms "boxes" boxes 3
  Check.rank .matrixNms "scores" scores 3
  let batches ← Check.merge .matrixNms "batch dimensions of boxes and scores"
    (.ranked [boxes.dim 0]) (.ranked [scores.dim 0])
  let counts ← Check.merge .matrixNms "box counts of boxes and scores"
    (.ranked [boxes.dim 1]) (.ranked [scores.dim 2])
  match boxes.dim? 2 with
  | some (.known width) => Result.ensure (width == 4) (.nmsBoxWidth boxes)
  | _ => pure ()
  let rows := a.rows (batches.dim 0) (counts.dim 0) (scores.dim 1)
  return [.ranked [rows, .known 6], .ranked [rows, .known 1], .ranked [batches.dim 0]]

def slots (a : NmsAttributes) (inputs : List Slot) : Result (List Slot) := do
  let outputs ← a.shapes (inputs.map Slot.shape)
  return (outputs.zip [ElementType.f32, a.indexType, a.indexType]).map fun p => Slot.ofShape p.1 p.2 .plain

end TensorPlan.NmsAttributes
