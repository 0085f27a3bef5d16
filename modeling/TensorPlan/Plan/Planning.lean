import TensorPlan.Plan.Basic
/-! Planning: from attributes and inputs to an execution plan, for the fast and for the elementwise
way of running an operator. -/
namespace TensorPlan

namespace PadAttributes

def validity (a : PadAttributes) : Validity := .ofLasting !a.isDataDependent

variable [Widths]

def plan (a : PadAttributes) (inputs : List Tensor) (context : PlanContext) : Result ExecutionPlan := do
  let request ← PadRequest.ofInputs a inputs
  let body ← PadPlan.ofRequest request
  let team := if body.outerRank = 0 ∧ !body.isFill then 1 else context.team
  return ⟨inputs.map Tensor.descriptor, [request.target], a.validity, .ofTeam body.work team, .pad body⟩

def planElements (a : PadAttributes) (inputs : List Tensor) (context : PlanContext) : Result ExecutionPlan := do
  let request ← PadRequest.ofInputs a inputs
  let layout ← request.target.layout
  return ⟨inputs.map Tensor.descriptor, [request.target], a.validity, .ofTeam layout.physicalSize context.team,
    .padElements request⟩

end PadAttributes

namespace BroadcastAttributes

def validity (a : BroadcastAttributes) : Validity := .ofLasting !a.isDataDependent

def plan (a : BroadcastAttributes) (inputs : List Tensor) (context : PlanContext) : Result ExecutionPlan := do
  let body ← BroadcastPlan.ofInputs a inputs
  Result.ensure (body.source.format == .plain && body.target.format == .plain)
    (.blockCopyLayout body.source.format body.target.format)
  return ⟨inputs.map Tensor.descriptor, [body.target], a.validity, .ofTeam (volume body.outerDims) context.team,
    .broadcast body⟩

def planElements (a : BroadcastAttributes) (inputs : List Tensor) (context : PlanContext) :
    Result ExecutionPlan := do
  let body ← BroadcastPlan.ofInputs a inputs
  let layout ← body.target.layout
  return ⟨inputs.map Tensor.descriptor, [body.target], a.validity, .ofTeam layout.physicalSize context.team,
    .broadcast body⟩

end BroadcastAttributes

namespace ReorderAttributes

variable [Widths]

def plan (a : ReorderAttributes) (inputs : List Tensor) (context : PlanContext) : Result ExecutionPlan := do
  let (body, constant) ← ReorderPlan.ofInputs a inputs
  let layout ← body.target.layout
  return ⟨inputs.map Tensor.descriptor, [body.target], .ofLasting constant,
    .ofTeam layout.physicalSize context.team, .reorder body⟩

def planElements (a : ReorderAttributes) (inputs : List Tensor) : Result ExecutionPlan := do
  let (body, constant) ← ReorderPlan.ofInputs a inputs
  return ⟨inputs.map Tensor.descriptor, [body.target], .ofLasting constant, .single body.source.count,
    .reorder body⟩

end ReorderAttributes

def NmsAttributes.plan (a : NmsAttributes) (inputs : List Tensor) (context : PlanContext) :
    Result ExecutionPlan := do
  let body ← NmsPlan.ofInputs a inputs
  return ⟨inputs.map Tensor.descriptor, body.outputs, .lasting, .ofTeam (body.batches * body.classes) context.team,
    .matrixNms body⟩

def GatherTree.plan (inputs : List Tensor) (context : PlanContext) : Result ExecutionPlan := do
  let body ← GatherTreePlan.ofInputs inputs
  return ⟨inputs.map Tensor.descriptor, [.plain [body.steps, body.batches, body.beams] body.type], .lasting,
    .ofTeam (body.batches * body.beams) context.team, .gatherTree body⟩

end TensorPlan
