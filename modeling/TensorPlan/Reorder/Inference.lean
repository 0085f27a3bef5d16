import TensorPlan.Graph.Node
import TensorPlan.Operator.Check
/-! Reordering before a run: attributes from a node, and output shapes. The inputs are the data and
the mean. -/
namespace TensorPlan.ReorderAttributes

def ofNode (n : Node) : Result ReorderAttributes := do
  Check.inputCount .reorder n.inputs.length 1 2
  let data ← Result.orFault n.inputs[0]?
  let type ← n.word? "output_type" "output_type" ElementType.ofText?
  let format ← n.word? "output_format" "output_format" MemoryFormat.ofText?
  let meanMode := (← n.word? "mean_mode" "mean_mode" MeanMode.ofText?).getD .ignore
  let mean := (← n.floats? "mean_values").getD []
  Result.ensure (meanMode == .ignore || !mean.isEmpty || decide (1 < n.inputs.length))
    (.meanMissing n.name meanMode)
  let truncate := (← n.bool? "truncate").getD false
  return ⟨type.getD data.type, format.getD data.format, meanMode, mean, truncate⟩

def meanSizes? : List Nat → Option (Nat × Nat)
  | _ :: channels :: spatial => some (channels, channels * volume spatial)
  | _ => none

def fitsMean (count : Nat) (dims : List Nat) : Bool :=
  (meanSizes? dims).any fun sizes => count == sizes.1 || count == sizes.2

def meanCount? (a : ReorderAttributes) (mean : Option Shape) : Option Nat :=
  if a.meanMode = .ignore then none
  else
    match mean with
    | some shape => shape.count?
    | none => some a.mean.length

def shapes (a : ReorderAttributes) (inputs : List Shape) : Result (List Shape) := do
  Check.inputCount .reorder inputs.length 1 2
  let data ← Result.orFault inputs[0]?
  Result.ensure (data.rank?.all a.format.supportsRank) (.formatCannotHold a.format data)
  match a.meanCount? inputs[1]?, data.toDims? with
  | some count, some dims => Result.ensure (fitsMean count dims) (.meanCount count data)
  | _, _ => pure ()
  return [data]

def slots (a : ReorderAttributes) (inputs : List Slot) : Result (List Slot) := do
  return (← a.shapes (inputs.map Slot.shape)).map fun shape => Slot.ofShape shape a.type a.format

end TensorPlan.ReorderAttributes
