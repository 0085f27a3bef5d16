import TensorPlan.Reorder.Inference
/-! Reorder plans: both descriptors, the mean values, and whether the bytes can be copied as they are. -/
namespace TensorPlan

structure ReorderPlan where
  source : Descriptor
  target : Descriptor
  meanMode : MeanMode
  mean : List Double
  perElement : Bool
  rounding : Rounding
  deriving DecidableEq, Repr

namespace ReorderPlan

def hasMean (p : ReorderPlan) : Bool := p.meanMode != .ignore

def isCopy (p : ReorderPlan) : Bool :=
  !p.hasMean && p.source.type == p.target.type && p.source.format == p.target.format

def meanAt? (p : ReorderPlan) (coords : List Nat) : Option Double :=
  match coords, p.source.dims with
  | _ :: channel :: position, _ :: _ :: spatial =>
    if p.perElement then p.mean[channel * volume spatial + dot position (strides spatial)]?
    else p.mean[channel]?
  | _, _ => none

variable [Widths]

def resolveMean (a : ReorderAttributes) (inputs : List Tensor) : Result (List Double × Bool) :=
  if a.meanMode = .ignore then .ok ([], true)
  else
    match inputs[1]? with
    | some t => do
      Result.ensure (t.format == .plain) (.meanFormat t.format)
      return (t.doubles, false)
    | none => .ok (a.mean.map Widths.widen, true)

def meanPerElement (mode : MeanMode) (count : Nat) (dims : List Nat) : Result Bool :=
  if mode = .ignore then .ok false
  else
    match ReorderAttributes.meanSizes? dims with
    | some (perChannel, perElement) =>
      if count = perChannel then .ok false
      else if count = perElement then .ok true
      else .fail (.meanFit count dims)
    | none => .fail (.meanFit count dims)

def ofInputs (a : ReorderAttributes) (inputs : List Tensor) : Result (ReorderPlan × Bool) := do
  let data ← Result.ofOption (.noPlanData .reorder) inputs.head?
  let source := data.descriptor
  Result.ensure (a.format.supportsRank source.rank) (.reorderRank a.format source.dims)
  let (mean, constant) ← resolveMean a inputs
  let perElement ← meanPerElement a.meanMode mean.length source.dims
  let rounding := if a.truncate then Rounding.towardZero else Rounding.halfEven
  return (⟨source, ⟨source.dims, a.type, a.format⟩, a.meanMode, mean, perElement, rounding⟩, constant)

def element (p : ReorderPlan) (bytes : Bytes) (coords : List Nat) : Result Bytes :=
  if p.hasMean then do
    let mean ← Result.orFault (p.meanAt? coords)
    return p.target.type.writeDouble p.rounding (p.meanMode.apply (p.source.type.readDouble bytes) mean)
  else .ok (p.source.type.convert bytes p.target.type p.rounding)

end ReorderPlan
end TensorPlan
