import TensorPlan.Proofs.Dispatch.Registry
/-! Registries after any calls, failing ones included. A call adds nothing, one fallback, or one entry after another, and
what each of these steps keeps holds of every registry that calls lead to. -/
namespace TensorPlan

inductive RegistryCall where
  | register (key : KernelKey) (kernel : Kernel)
  | registerForTypes (kernel : Kernel) (types : List (ElementType × MemoryFormat)) (modes : List ShapeMode)
  | registerAny (kernel : Kernel) (modes : List ShapeMode)
  | setFallback (kernel : Kernel)

def RegistryCall.registering : RegistryCall → Registering Unit
  | register key kernel => KernelRegistry.register key kernel
  | registerForTypes kernel types modes => KernelRegistry.registerForTypes kernel types modes
  | registerAny kernel modes => KernelRegistry.registerAny kernel modes
  | setFallback kernel => KernelRegistry.setFallback kernel

namespace KernelRegistry
variable {r : KernelRegistry} {kernel : Kernel} {key : KernelKey}

def ofCalls (calls : List RegistryCall) : KernelRegistry :=
  calls.foldl (fun r call => (call.registering.run r).2) empty

structure Admits (r : KernelRegistry) (key : KernelKey) (kernel : Kernel) : Prop where
  kind : kernel.kind = key.kind
  free : ∀ e ∈ r.entries, e.key = key → e.kernel.name ≠ kernel.name

theorem registerCases (r : KernelRegistry) (key : KernelKey) (kernel : Kernel) :
    (r.Admits key kernel ∧
        (register key kernel).run r = (Except.ok (), ⟨r.entries ++ [⟨key, kernel, r.entries.length⟩], r.fallbacks⟩)) ∨
      ∃ h, (register key kernel).run r = (Except.error h, r) := by
  by_cases kind : kernel.kind = key.kind
  · by_cases free : ∀ e ∈ r.entries, e.key = key → e.kernel.name ≠ kernel.name
    · exact .inl ⟨⟨kind, free⟩, registerOk kind.symm free⟩
    · have taken : (r.entries.any fun e => e.key == key && e.kernel.name == kernel.name) = true := by
        simpa using free
      right
      rw [register, Run.bindOk (runGet r), kind, beq_self_eq_true, Result.ensure, if_pos rfl, Run.bindOk (Run.runLift _ _)]
      simp only [taken, Bool.not_true, Result.ensure, Bool.false_eq_true, if_false]
      exact ⟨_, rfl⟩
  · right
    have other : (kernel.kind == key.kind) = false := beq_eq_false_iff_ne.mpr kind
    rw [register, Run.bindOk (runGet r), other]
    exact ⟨_, rfl⟩

theorem setFallbackCases (r : KernelRegistry) (kernel : Kernel) :
    (r.fallback? kernel.kind = none ∧
        (setFallback kernel).run r = (Except.ok (), ⟨r.entries, r.fallbacks ++ [kernel]⟩)) ∨
      ∃ h, (setFallback kernel).run r = (Except.error h, r) := by
  cases found : r.fallback? kernel.kind with
  | none => exact .inl ⟨rfl, setFallbackOk found⟩
  | some k =>
    right
    rw [setFallback, Run.bindOk (runGet r), found]
    exact ⟨_, rfl⟩

section
variable {property : KernelRegistry → Prop}
  (entry : ∀ r key kernel, r.Admits key kernel → property r →
    property ⟨r.entries ++ [⟨key, kernel, r.entries.length⟩], r.fallbacks⟩)
include entry

theorem registerAllKeeps (keys : List KernelKey) (kernel : Kernel) (start : property r) :
    property ((registerAll kernel keys).run r).2 := by
  induction keys generalizing r with
  | nil => exact start
  | cons key keys ih =>
    rw [registerAll]
    obtain ⟨admits, made⟩ | ⟨h, failed⟩ := registerCases r key kernel
    · rw [Run.bindOk made]
      exact ih (entry r key kernel admits start)
    · rw [Run.bindError failed]
      exact start

variable (fallback : ∀ r kernel, r.fallback? kernel.kind = none → property r →
    property ⟨r.entries, r.fallbacks ++ [kernel]⟩)
include fallback

theorem callKeeps (call : RegistryCall) (start : property r) : property (call.registering.run r).2 := by
  cases call with
  | register key kernel =>
    obtain ⟨admits, made⟩ | ⟨h, failed⟩ := registerCases r key kernel
    · rw [RegistryCall.registering, made]
      exact entry r key kernel admits start
    · rw [RegistryCall.registering, failed]
      exact start
  | registerForTypes kernel types modes => exact registerAllKeeps entry _ kernel start
  | registerAny kernel modes => exact registerAllKeeps entry _ kernel start
  | setFallback kernel =>
    obtain ⟨missing, made⟩ | ⟨h, failed⟩ := setFallbackCases r kernel
    · rw [RegistryCall.registering, made]
      exact fallback r kernel missing start
    · rw [RegistryCall.registering, failed]
      exact start

theorem ofCallsKeeps (start : property empty) (calls : List RegistryCall) : property (ofCalls calls) := by
  unfold ofCalls
  generalize empty = r at start
  induction calls generalizing r with
  | nil => exact start
  | cons call calls ih => exact ih _ (callKeeps entry fallback call start)

end

theorem ofCallsKinds (calls : List RegistryCall) : ∀ e ∈ (ofCalls calls).entries, e.kernel.kind = e.key.kind := by
  apply @ofCallsKeeps fun r => ∀ e ∈ r.entries, e.kernel.kind = e.key.kind
  · intro r key kernel admits kinds e member
    rcases List.mem_append.mp member with old | new
    · exact kinds e old
    · rw [List.mem_singleton.mp new]
      exact admits.kind
  · exact fun r kernel _ kinds => kinds
  · exact fun e member => nomatch member

theorem fallbackKind {kind : OperatorKind} (found : r.fallback? kind = some kernel) : kernel.kind = kind := by
  unfold fallback? at found
  have own := List.find?_some found
  exact beq_iff_eq.mp own

end KernelRegistry
end TensorPlan
