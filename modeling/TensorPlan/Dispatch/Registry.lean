import TensorPlan.Dispatch.Builtin
/-! Kernel registries: kernels under keys, in the order of registration, and one fallback for each
operator kind. A registration that fails leaves the registry as it is; one for several keys stops at
the first that fails and keeps the others. -/
namespace TensorPlan

structure KernelEntry where
  key : KernelKey
  kernel : Kernel
  order : Nat

structure KernelRegistry where
  entries : List KernelEntry
  fallbacks : List Kernel

abbrev Registering := ExceptT Halt (StateM KernelRegistry)

namespace KernelRegistry

def empty : KernelRegistry := ⟨[], []⟩

def fallback? (r : KernelRegistry) (kind : OperatorKind) : Option Kernel := r.fallbacks.find? fun k => k.kind == kind

def knows (r : KernelRegistry) (kind : OperatorKind) : Bool :=
  (r.fallback? kind).isSome || r.entries.any fun e => e.key.kind == kind

def register (key : KernelKey) (kernel : Kernel) : Registering Unit := do
  let r ← get
  liftExcept (Result.ensure (kernel.kind == key.kind) (.kernelKind kernel.name kernel.kind key.kind))
  let taken := r.entries.any fun e => e.key == key && e.kernel.name == kernel.name
  liftExcept (Result.ensure (!taken) (.kernelTaken kernel.name key))
  set (⟨r.entries ++ [⟨key, kernel, r.entries.length⟩], r.fallbacks⟩ : KernelRegistry)

def registerAll (kernel : Kernel) : List KernelKey → Registering Unit
  | [] => pure ()
  | key :: keys => do
    register key kernel
    registerAll kernel keys

def registerForTypes (kernel : Kernel) (types : List (ElementType × MemoryFormat)) (modes : List ShapeMode) :
    Registering Unit :=
  registerAll kernel (modes.flatMap fun mode => types.map fun t => ⟨kernel.kind, some t.1, some t.2, mode⟩)

def registerAny (kernel : Kernel) (modes : List ShapeMode) : Registering Unit :=
  registerAll kernel (modes.map fun mode => ⟨kernel.kind, none, none, mode⟩)

def setFallback (kernel : Kernel) : Registering Unit := do
  let r ← get
  match r.fallback? kernel.kind with
  | some k => liftExcept (Result.fail (.fallbackTaken kernel.kind k.name))
  | none => set (⟨r.entries, r.fallbacks ++ [kernel]⟩ : KernelRegistry)

def insertBest : List KernelEntry → KernelEntry → List KernelEntry
  | [], e => [e]
  | b :: bs, e =>
    if b.kernel.name = e.kernel.name then
      (if b.key.specificity < e.key.specificity then e else b) :: bs
    else b :: insertBest bs e

/-- The entries that fit a request: for each kernel name the first with the most specific key. -/
def candidates (r : KernelRegistry) (kind : OperatorKind) (type : Option ElementType)
    (format : Option MemoryFormat) (mode : ShapeMode) : List KernelEntry :=
  (r.entries.filter fun e => e.key.kind == kind && e.key.mode == mode && e.key.accepts type format).foldl insertBest []

def find? (r : KernelRegistry) (kind : OperatorKind) (name : String) : Option Kernel :=
  (r.entries.map KernelEntry.kernel ++ (r.fallback? kind).toList).find? fun k => k.kind == kind && k.name == name

def describe (r : KernelRegistry) : String :=
  let pairs := (r.fallbacks.map fun k => (k.kind.text, k.name)).mergeSort fun a b => decide (a.1 ≤ b.1)
  Text.record "KernelRegistry" [("entries", toString r.entries.length),
    ("fallbacks", Text.list (fun p => Text.applied "" [Text.quoted p.1, Text.quoted p.2]) pairs)]

def pairsWith (formats : List MemoryFormat) : List (ElementType × MemoryFormat) :=
  ElementType.all.flatMap fun t => formats.map fun f => (t, f)

def registerPair [Widths] (fast reference : BuiltinKernel) (formats : List MemoryFormat) : Registering Unit := do
  registerForTypes fast.kernel (pairsWith formats) ShapeMode.all
  registerAny reference.kernel ShapeMode.all
  setFallback reference.kernel

def registerBuiltin [Widths] : Registering Unit := do
  registerPair .padRows .padElements MemoryFormat.all
  registerPair .broadcastBlocks .broadcastElements [.plain]
  registerPair .reorderSpans .reorderElements MemoryFormat.all
  registerForTypes BuiltinKernel.matrixNms.kernel [(.f32, .plain)] ShapeMode.all
  setFallback BuiltinKernel.matrixNms.kernel
  registerAny BuiltinKernel.gatherTree.kernel ShapeMode.all
  setFallback BuiltinKernel.gatherTree.kernel

def builtin [Widths] : KernelRegistry := (registerBuiltin.run empty).2

end KernelRegistry
end TensorPlan
