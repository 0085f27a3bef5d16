import TensorPlan.Operator.Registry
import TensorPlan.Session.Executor
import TensorPlan.Tuning.File
/-! Engines: the operators, the kernels, the options and the tuning cache that belong together. -/
namespace TensorPlan

structure Engine where
  operators : OperatorRegistry
  kernels : KernelRegistry
  options : EngineOptions
  cache : Option TuningCache
  /-- The number of workers of the pool that all engines without one of their own share. -/
  shared : Nat

namespace Engine

def create [Widths] (shared : Nat) (options : EngineOptions) (kernels : KernelRegistry) (file : File) : Result Engine := do
  let cache ← match options.cachePath with
    | some _ => some <$> TuningCache.ofFile file
    | none => pure none
  return ⟨.standard, kernels, options, cache, shared⟩

def threads (e : Engine) : Nat := if e.options.threads = 0 then e.shared else e.options.threads

def selector (e : Engine) : Selector := ⟨e.kernels, e.options⟩

def infer (e : Engine) (n : Node) : Result (List Slot) := e.operators.infer n

def select (e : Engine) (p : KernelParams) (device : Device) : Result Selection × Engine :=
  let (selection, cache) := e.selector.select e.cache p device
  (selection, { e with cache := cache })

def analyze (e : Engine) (n : Node) : Result (Attributes × List Slot) := do
  let attributes ← e.operators.create n
  return (attributes, ← attributes.slots n.inputs)

def compile (e : Engine) (n : Node) (device : Device) : Result NodeExecutor × Engine :=
  match e.analyze n with
  | .error h => (.error h, e)
  | .ok (attributes, outputs) =>
    let (selection, e) := e.select ⟨attributes, n.inputs, outputs⟩ device
    (selection.map fun s => .create n.name attributes s outputs e.threads, e)

def run (executor : NodeExecutor) (s : Schedule) (inputs : List Tensor) : Result (List Tensor) × NodeExecutor :=
  if inputs.isEmpty then (.fail (.emptyRun executor.name), executor) else executor.execute s inputs

def save (e : Engine) (file : File) : Result Bool × Engine × File :=
  match e.cache with
  | some cache =>
    if cache.changed then
      let (result, cache, file) := cache.save file
      (result.map fun _ => true, { e with cache := some cache }, file)
    else (.ok false, e, file)
  | none => (.ok false, e, file)

end Engine
end TensorPlan
