import TensorPlan.Dispatch.Selector
/-! Node executors: a node bound to a kernel, with the plan of its last run. A plan is kept as long as
it holds for the inputs; a new one must fit what shape inference expects. -/
namespace TensorPlan

structure NodeExecutor where
  name : String
  attributes : Attributes
  selection : Selection
  expected : List Slot
  threads : Nat
  plan : Option ExecutionPlan

namespace NodeExecutor

def create (name : String) (attributes : Attributes) (selection : Selection) (expected : List Slot)
    (threads : Nat) : NodeExecutor := ⟨name, attributes, selection, expected, threads, none⟩

def kernel (e : NodeExecutor) : Kernel := e.selection.kernel

def checkOutput (name : String) (slot : Slot) (output : Descriptor) : Result Unit :=
  .ensure (slot.type == output.type && slot.shape.compatible output.shape)
    (.outputMismatch name output.dims output.type slot.shape slot.type)

def checkOutputs (e : NodeExecutor) (plan : ExecutionPlan) : Result Unit := do
  Result.ensure (e.expected.isEmpty || e.expected.length == plan.outputs.length)
    (.outputCount e.name e.kernel.name plan.outputs.length e.expected.length)
  discard (Result.forEach (fun p => checkOutput e.name p.1 p.2) (e.expected.zip plan.outputs))

def newPlan (e : NodeExecutor) (inputs : List Tensor) : Result ExecutionPlan := do
  let plan ← e.kernel.plan e.attributes inputs (PlanContext.ofThreads e.threads e.selection.config)
  e.checkOutputs plan
  return plan

def prepare (e : NodeExecutor) (inputs : List Tensor) : Result ExecutionPlan × NodeExecutor :=
  match e.plan.filter fun p => p.isReusableFor inputs with
  | some plan => (.ok plan, e)
  | none =>
    match e.newPlan inputs with
    | .ok plan => (.ok plan, { e with plan := some plan })
    | .error h => (.error h, e)

def runPlan (e : NodeExecutor) (s : Schedule) (plan : ExecutionPlan) (inputs : List Tensor) : Result (List Tensor) := do
  let outputs ← Result.forEach Tensor.zeros plan.outputs
  let (result, outputs) := (e.kernel.execute s plan inputs).run outputs
  result
  return outputs

def execute (e : NodeExecutor) (s : Schedule) (inputs : List Tensor) : Result (List Tensor) × NodeExecutor :=
  match e.prepare inputs with
  | (.ok plan, e) => (e.runPlan s plan inputs, e)
  | (.error h, e) => (.error h, e)

end NodeExecutor
end TensorPlan
