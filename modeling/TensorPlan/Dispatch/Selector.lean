import TensorPlan.Dispatch.Device
import TensorPlan.Dispatch.Registry
import TensorPlan.Session.Options
import TensorPlan.Tuning.Cache
/-! Choosing a kernel. Candidates are ordered by the specificity of their keys, then fast ones before
references, then by registration. A choice of the tuning cache wins if it names a candidate; otherwise
the first candidate is taken, and the fallback of the operator kind if there is none. -/
namespace TensorPlan

inductive SelectionSource where
  | tuned
  | heuristic
  | fallback
  deriving DecidableEq, Repr

def SelectionSource.text : SelectionSource → String
  | tuned => "Tuned"
  | heuristic => "Heuristic"
  | fallback => "Fallback"

structure Selection where
  kernel : Kernel
  config : Nat
  source : SelectionSource

structure Selector where
  registry : KernelRegistry
  options : EngineOptions

namespace Selector

def entryOrder (a b : KernelEntry) : Ordering :=
  (compare b.key.specificity a.key.specificity).then
    ((compare a.kernel.isReference b.kernel.isReference).then (compare a.order b.order))

def candidates (s : Selector) (p : KernelParams) (device : Device) : List Kernel :=
  if p.mode = .someUnknown ∧ !s.options.dynamicShapes then []
  else if p.format?.any fun f => !device.supports f then []
  else
    let entries := (s.registry.candidates p.kind p.type? p.format? p.mode).filter fun e => e.kernel.supports p
    (entries.mergeSort fun a b => (entryOrder a b).isLE).map KernelEntry.kernel

def selectFallback (s : Selector) (p : KernelParams) : Result Selection :=
  if s.options.fallback then do
    let kernel ← Result.ofOption (.noFallback p.kind) (s.registry.fallback? p.kind)
    return ⟨kernel, 0, .fallback⟩
  else .fail (.fallbackDisabled p.kind p.type? p.format? p.mode)

def tuned? (kernels : List Kernel) (hit : Option CacheEntry) : Option Selection := do
  let e ← hit
  let kernel ← kernels.find? fun k => k.name == e.kernel
  some ⟨kernel, e.index, .tuned⟩

def selectWith (s : Selector) (cache : TuningCache) (p : KernelParams) (device : Device) :
    Result Selection × TuningCache :=
  let kernels := s.candidates p device
  let (hit, cache) := cache.load p device.units
  match tuned? kernels hit, kernels with
  | some selection, _ => (.ok selection, cache)
  | none, kernel :: _ =>
    let kept := if s.options.tuning = .useAndUpdate then cache.store p device.units kernel.name 0 else cache
    (.ok ⟨kernel, 0, .heuristic⟩, kept)
  | none, [] => (s.selectFallback p, cache)

def selectAlone (s : Selector) (p : KernelParams) (device : Device) : Result Selection :=
  match s.candidates p device with
  | kernel :: _ => .ok ⟨kernel, 0, .heuristic⟩
  | [] => s.selectFallback p

def select (s : Selector) (cache : Option TuningCache) (p : KernelParams) (device : Device) :
    Result Selection × Option TuningCache :=
  if s.registry.knows p.kind then
    match s.options.tuning, cache with
    | .disabled, cache => (s.selectAlone p device, cache)
    | _, none => (s.selectAlone p device, none)
    | _, some cache =>
      let (selection, cache) := s.selectWith cache p device
      (selection, some cache)
  else (.fail (.noKernels p.kind), cache)

end Selector
end TensorPlan
