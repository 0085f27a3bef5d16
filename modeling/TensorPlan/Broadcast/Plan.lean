import TensorPlan.Broadcast.Inference
/-! Broadcast plans: the input dimensions aligned with the output, and the longest run of trailing
axes that agree, which moves as one block. -/
namespace TensorPlan

structure BroadcastPlan where
  source : Descriptor
  target : Descriptor
  aligned : List Nat
  deriving DecidableEq, Repr

namespace BroadcastPlan

def elementSize (p : BroadcastPlan) : Nat := p.source.type.size

def outerRank (p : BroadcastPlan) : Nat :=
  let rank := p.target.rank
  ((List.range (rank + 1)).find? fun k => p.aligned.drop k == p.target.dims.drop k).getD rank

def outerDims (p : BroadcastPlan) : List Nat := p.target.dims.take p.outerRank

def blockLength (p : BroadcastPlan) : Nat := volume (p.target.dims.drop p.outerRank)

def sourceLayout (p : BroadcastPlan) : Result Layout :=
  if p.source.format = .plain ∨ p.source.count ≤ 1 then .ok (Layout.contiguous p.aligned)
  else p.source.layout

def resolveTarget (a : BroadcastAttributes) (inputs : List Tensor) : Result (List Nat) := do
  match a.target with
  | some dims => return dims
  | none =>
    let values ← (← Result.ofOption .targetMissing inputs[1]?).integers
    Result.ensure (values.all (0 ≤ ·)) (.targetNegative values)
    return values.map Int.toNat

def ofInputs (a : BroadcastAttributes) (inputs : List Tensor) : Result BroadcastPlan := do
  let data ← Result.ofOption (.noPlanData .broadcast) inputs.head?
  let source := data.descriptor
  let dims ← resolveTarget a inputs
  let aligned ← Broadcast.normalize source.dims dims a.axes
  Result.ensure (source.format == .plain || aligned == source.dims || decide (source.count ≤ 1))
    (.broadcastRank source.format source.dims dims.length)
  return ⟨source, ⟨dims, source.type, BroadcastAttributes.outputFormat source.format dims.length⟩, aligned⟩

end BroadcastPlan
end TensorPlan
