import TensorPlan.Broadcast.Alignment
import TensorPlan.Graph.Node
import TensorPlan.Operator.Check
/-! Broadcasting before a run: attributes from a node, output shapes and output formats. The inputs
are the data, the target shape and the axes; the axes must be constant. -/
namespace TensorPlan.BroadcastAttributes

def naturals (what : String) (values : List Int) : Result (List Nat) :=
  if values.all (0 ≤ ·) then .ok (values.map Int.toNat) else .fail (.broadcastNegative what values)

def listOfNode (n : Node) (name : String) (input : Nat) : Result (Option (List Nat)) := do
  match ← n.ints? name, n.constant? input with
  | some values, _ => return some (← naturals name values)
  | none, some t => return some (← naturals name (← t.integers))
  | none, none => return none

def ofNode (n : Node) : Result BroadcastAttributes := do
  let target ← listOfNode n "target_shape" 1
  let axes ← listOfNode n "axes" 2
  Result.ensure (axes.isSome || decide (n.inputs.length ≤ 2)) (.axesNotConstant n.name)
  return ⟨target, axes⟩

def outputFormat (input : MemoryFormat) (rank : Nat) : MemoryFormat :=
  if input.supportsRank rank then input else .plain

def shapes (a : BroadcastAttributes) (inputs : List Shape) : Result (List Shape) := do
  Check.inputCount .broadcast inputs.length (if a.target.isSome then 1 else 2) 3
  match inputs[1]? with
  | some target => Check.rank .broadcast "target_shape" target 1
  | none => pure ()
  let data ← Result.orFault inputs[0]?
  match a.target with
  | some target =>
    match data.toDims? with
    | some dims => discard (Broadcast.normalize dims target a.axes)
    | none => pure ()
    return [Shape.ofDims target]
  | none =>
    match inputs[1]?.bind (Shape.dim? · 0) with
    | some (.known rank) => return [Shape.ofRank rank]
    | _ => return [.unranked]

def slots (a : BroadcastAttributes) (inputs : List Slot) : Result (List Slot) := do
  let outputs ← a.shapes (inputs.map Slot.shape)
  let data ← Result.orFault inputs[0]?
  return outputs.map fun shape =>
    Slot.ofShape shape data.type ((shape.rank?.map (outputFormat data.format)).getD .plain)

end TensorPlan.BroadcastAttributes
