import TensorPlan.Operator.Check
/-! Gathering beams before a run. The inputs are step ids and parent ids of shape
`[steps, batches, beams]`, a length for each batch, and a scalar end token. -/
namespace TensorPlan.GatherTree

def mergeBatches (ids lengths : Shape) : Result Shape :=
  match ids.dims?, lengths.dims? with
  | some _, some _ => do
    let batches ← Check.merge .gatherTree "batch dimension of step_ids and max_seq_len"
      (.ranked [ids.dim 1]) lengths
    return ids.setDim 1 (batches.dim 0)
  | _, _ => .ok ids

def shapes (inputs : List Shape) : Result (List Shape) := do
  Check.inputCount .gatherTree inputs.length 4 4
  match inputs with
  | [steps, parents, lengths, endToken] =>
    let ids ← Check.merge .gatherTree "step_ids and parent_ids shapes" steps parents
    Check.rank .gatherTree "step_ids and parent_ids" ids 3
    Check.rank .gatherTree "max_seq_len" lengths 1
    let output ← mergeBatches ids lengths
    Check.rank .gatherTree "end_token" endToken 0
    return [output]
  | _ => .fault

end TensorPlan.GatherTree
