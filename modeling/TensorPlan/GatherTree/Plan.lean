import TensorPlan.Tensor.Values
/-! Plans for gathering beams: the numbers of steps, batches and beams. -/
namespace TensorPlan

structure GatherTreePlan where
  steps : Nat
  batches : Nat
  beams : Nat
  type : ElementType
  deriving DecidableEq, Repr

namespace GatherTreePlan

def empty : GatherTreePlan := ⟨0, 0, 0, .i32⟩

def position (p : GatherTreePlan) (step batch beam : Nat) : Nat := (step * p.batches + batch) * p.beams + beam

def ofInputs (inputs : List Tensor) : Result GatherTreePlan := do
  match inputs with
  | [steps, parents, lengths, endToken] =>
    match inputs.find? fun t => t.format != .plain with
    | some t => .fail (.gatherFormat t.format)
    | none => pure ()
    let mismatch := Error.gatherShapes steps.dims parents.dims lengths.dims endToken.dims
    match steps.dims with
    | [count, batches, beams] =>
      Result.ensure (parents.dims == steps.dims && lengths.dims == [batches] && endToken.count == 1) mismatch
      return ⟨count, batches, beams, steps.type⟩
    | _ => .fail mismatch
  | _ => .fail (.gatherInputs inputs.length)

end GatherTreePlan
end TensorPlan
