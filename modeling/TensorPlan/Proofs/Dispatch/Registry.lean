import Mathlib.Data.List.Flatten
import Mathlib.Data.List.Nodup
import Mathlib.Data.List.Pairwise
import TensorPlan.Dispatch.Registry
import TensorPlan.Proofs.Computation
/-! The registry of the kernels that come with the library. Registering under distinct keys of the right kind
succeeds for a name that is new, so every entry belongs to one of these kernels, the kernel for blocks is only
registered for plain tensors, and every operator kind has its reference as its fallback. -/
namespace TensorPlan

def BuiltinKernel.reference : OperatorKind → BuiltinKernel
  | .pad => padElements
  | .broadcast => broadcastElements
  | .reorder => reorderElements
  | .matrixNms => matrixNms
  | .gatherTree => gatherTree

theorem BuiltinKernel.referenceKind (kind : OperatorKind) : (reference kind).kind = kind := by cases kind <;> rfl

theorem BuiltinKernel.referenceSupports (kind : OperatorKind) (p : KernelParams) : (reference kind).supports p = true := by
  cases kind <;> rfl

theorem BuiltinKernel.namesDiffer {k other : BuiltinKernel} (different : k ≠ other) : k.name ≠ other.name := by
  cases k <;> cases other <;> first | exact absurd rfl different | decide

namespace KernelRegistry
variable {r : KernelRegistry} {kernel : Kernel} {key : KernelKey} {keys : List KernelKey}

theorem runGet (r : KernelRegistry) : (get : Registering KernelRegistry).run r = (Except.ok r, r) := rfl

theorem registerOk (kind : key.kind = kernel.kind)
    (free : ∀ e ∈ r.entries, e.key = key → e.kernel.name ≠ kernel.name) :
    (register key kernel).run r = (Except.ok (), ⟨r.entries ++ [⟨key, kernel, r.entries.length⟩], r.fallbacks⟩) := by
  have untaken : (r.entries.any fun e => e.key == key && e.kernel.name == kernel.name) = false := by
    rw [List.any_eq_false]
    intro e member
    simpa using free e member
  rw [register, Run.bindOk (runGet r), kind, beq_self_eq_true, Result.ensure, if_pos rfl, Run.bindOk (Run.runLift _ _)]
  simp only [untaken, Bool.not_false, Result.ensure, if_true]
  rw [Run.bindOk (Run.runLift _ _)]
  rfl

theorem registerAllOk (kinds : ∀ key ∈ keys, key.kind = kernel.kind) (distinct : keys.Nodup)
    (free : ∀ e ∈ r.entries, e.key ∈ keys → e.kernel.name ≠ kernel.name) :
    ∃ next, (registerAll kernel keys).run r = (Except.ok (), next) ∧ next.fallbacks = r.fallbacks ∧
      ∀ e ∈ next.entries, e ∈ r.entries ∨ e.kernel = kernel ∧ e.key ∈ keys := by
  induction keys generalizing r with
  | nil => exact ⟨r, rfl, rfl, fun e member => .inl member⟩
  | cons key keys ih =>
    rw [List.nodup_cons] at distinct
    have first := registerOk (r := r) (kinds key List.mem_cons_self) fun e member same =>
      free e member (by rw [same]; exact List.mem_cons_self)
    obtain ⟨next, run, fallbacks, entries⟩ := @ih ⟨r.entries ++ [⟨key, kernel, r.entries.length⟩], r.fallbacks⟩
      (fun key member => kinds key (List.mem_cons_of_mem _ member)) distinct.2 fun e member later => by
        rcases List.mem_append.mp member with old | new
        · exact free e old (List.mem_cons_of_mem _ later)
        · rw [List.mem_singleton] at new
          rw [new] at later
          exact absurd later distinct.1
    refine ⟨next, by rw [registerAll, Run.bindOk first, run], fallbacks, fun e member => ?_⟩
    rcases entries e member with earlier | ⟨own, later⟩
    · rcases List.mem_append.mp earlier with old | new
      · exact .inl old
      · rw [List.mem_singleton] at new
        rw [new]
        exact .inr ⟨rfl, List.mem_cons_self⟩
    · exact .inr ⟨own, List.mem_cons_of_mem _ later⟩

theorem setFallbackOk (missing : r.fallback? kernel.kind = none) :
    (setFallback kernel).run r = (Except.ok (), ⟨r.entries, r.fallbacks ++ [kernel]⟩) := by
  rw [setFallback, Run.bindOk (runGet r), missing]
  rfl

variable [Widths]

structure Entry (k : BuiltinKernel) (e : KernelEntry) : Prop where
  kernel : e.kernel = k.kernel
  kind : e.key.kind = k.kind
  plain : k = .broadcastBlocks → e.key.format = some .plain

structure Holds (r : KernelRegistry) (kernels references : List BuiltinKernel) : Prop where
  entries : ∀ e ∈ r.entries, ∃ k ∈ kernels, Entry k e
  fallbacks : r.fallbacks = references.map BuiltinKernel.kernel

variable {k : BuiltinKernel} {kernels references : List BuiltinKernel}

theorem Holds.register (holds : r.Holds kernels references) (other : k ∉ kernels) (kinds : ∀ key ∈ keys, key.kind = k.kind)
    (distinct : keys.Nodup) (plain : k = .broadcastBlocks → ∀ key ∈ keys, key.format = some .plain) :
    ∃ next, (registerAll k.kernel keys).run r = (Except.ok (), next) ∧ next.Holds (k :: kernels) references := by
  have free : ∀ e ∈ r.entries, e.key ∈ keys → e.kernel.name ≠ k.kernel.name := by
    intro e member _
    obtain ⟨k', inside, entry⟩ := holds.entries e member
    rw [entry.kernel]
    exact BuiltinKernel.namesDiffer fun same => other (by rwa [← same])
  obtain ⟨next, run, fallbacks, entries⟩ := registerAllOk kinds distinct free
  refine ⟨next, run, fun e member => ?_, fallbacks.trans holds.fallbacks⟩
  rcases entries e member with old | ⟨own, inside⟩
  · obtain ⟨k', inside, entry⟩ := holds.entries e old
    exact ⟨k', List.mem_cons_of_mem _ inside, entry⟩
  · exact ⟨k, List.mem_cons_self, own, kinds _ inside, fun blocks => plain blocks _ inside⟩

theorem Holds.setFallback (holds : r.Holds kernels references) (other : ∀ k' ∈ references, k'.kind ≠ k.kind) :
    ∃ next, (setFallback k.kernel).run r = (Except.ok (), next) ∧ next.Holds kernels (references ++ [k]) := by
  have missing : r.fallback? k.kernel.kind = none := by
    rw [fallback?, holds.fallbacks, List.find?_eq_none]
    intro kernel member
    obtain ⟨k', inside, same⟩ := List.mem_map.mp member
    rw [← same]
    exact fun equal => other k' inside (beq_iff_eq.mp equal)
  exact ⟨_, setFallbackOk missing, holds.entries, by rw [List.map_append, holds.fallbacks]; rfl⟩

omit [Widths] in
theorem typeKeysDistinct {kind : OperatorKind} {types : List (ElementType × MemoryFormat)} {modes : List ShapeMode}
    (typesDistinct : types.Nodup) (modesDistinct : modes.Nodup) :
    (modes.flatMap fun mode => types.map fun t => (⟨kind, some t.1, some t.2, mode⟩ : KernelKey)).Nodup := by
  rw [List.nodup_flatMap]
  refine ⟨fun mode _ => typesDistinct.map fun s t same => ?_, modesDistinct.imp fun different key left right => ?_⟩
  · simp only [KernelKey.mk.injEq, Option.some.injEq] at same
    exact Prod.ext same.2.1 same.2.2.1
  · obtain ⟨_, _, first⟩ := List.mem_map.mp left
    obtain ⟨_, _, second⟩ := List.mem_map.mp right
    rw [← first] at second
    simp only [KernelKey.mk.injEq] at second
    exact different second.2.2.2.symm

theorem Holds.registerForTypes (holds : r.Holds kernels references) (other : k ∉ kernels)
    {types : List (ElementType × MemoryFormat)} (distinct : types.Nodup)
    (plain : k = .broadcastBlocks → ∀ t ∈ types, t.2 = .plain) :
    ∃ next, (KernelRegistry.registerForTypes k.kernel types ShapeMode.all).run r = (Except.ok (), next) ∧
      next.Holds (k :: kernels) references := by
  have fromType : ∀ key ∈ ShapeMode.all.flatMap fun mode => types.map fun t =>
      (⟨k.kernel.kind, some t.1, some t.2, mode⟩ : KernelKey), ∃ t ∈ types, key.kind = k.kind ∧ key.format = some t.2 := by
    intro key member
    obtain ⟨mode, _, inside⟩ := List.mem_flatMap.mp member
    obtain ⟨t, given, same⟩ := List.mem_map.mp inside
    rw [← same]
    exact ⟨t, given, rfl, rfl⟩
  apply holds.register other
  · intro key member
    obtain ⟨_, _, kind, _⟩ := fromType key member
    exact kind
  · exact typeKeysDistinct distinct (by decide)
  · intro blocks key member
    obtain ⟨t, given, _, format⟩ := fromType key member
    rw [format, plain blocks t given]

theorem Holds.registerAny (holds : r.Holds kernels references) (other : k ∉ kernels) (elements : k ≠ .broadcastBlocks) :
    ∃ next, (KernelRegistry.registerAny k.kernel ShapeMode.all).run r = (Except.ok (), next) ∧
      next.Holds (k :: kernels) references := by
  apply holds.register other
  · intro key member
    obtain ⟨mode, _, same⟩ := List.mem_map.mp member
    rw [← same]; rfl
  · refine List.Nodup.map (fun s t same => ?_) (show ShapeMode.all.Nodup by decide)
    simp only [KernelKey.mk.injEq] at same
    exact same.2.2.2
  · exact fun blocks => absurd blocks elements

theorem Holds.registerPair {fast reference : BuiltinKernel} {formats : List MemoryFormat}
    (holds : r.Holds kernels references) (fastOther : fast ∉ kernels) (referenceOther : reference ∉ fast :: kernels)
    (distinct : (pairsWith formats).Nodup) (plain : fast = .broadcastBlocks → formats = [.plain])
    (elements : reference ≠ .broadcastBlocks) (kinds : ∀ k ∈ references, k.kind ≠ reference.kind) :
    ∃ next, (KernelRegistry.registerPair fast reference formats).run r = (Except.ok (), next) ∧
      next.Holds (reference :: fast :: kernels) (references ++ [reference]) := by
  obtain ⟨r1, first, holds⟩ := holds.registerForTypes fastOther distinct fun blocks t member => by
    rw [plain blocks] at member
    obtain ⟨_, _, inside⟩ := List.mem_flatMap.mp member
    obtain ⟨f, only, same⟩ := List.mem_map.mp inside
    rw [← same]
    exact List.mem_singleton.mp only
  obtain ⟨r2, second, holds⟩ := holds.registerAny referenceOther elements
  obtain ⟨r3, third, holds⟩ := holds.setFallback kinds
  exact ⟨r3, by rw [KernelRegistry.registerPair, Run.bindOk first, Run.bindOk second, third], holds⟩

theorem builtinHolds : builtin.Holds
    [.gatherTree, .matrixNms, .reorderElements, .reorderSpans, .broadcastElements, .broadcastBlocks, .padElements, .padRows]
    [.padElements, .broadcastElements, .reorderElements, .matrixNms, .gatherTree] := by
  have start : empty.Holds [] [] := ⟨fun e member => (List.not_mem_nil member).elim, rfl⟩
  obtain ⟨r1, pad, holds⟩ := @Holds.registerPair empty _ [] [] .padRows .padElements MemoryFormat.all start (by decide)
    (by decide) (by decide) (by decide) (by decide) (by decide)
  obtain ⟨r2, broadcast, holds⟩ := @Holds.registerPair _ _ _ _ .broadcastBlocks .broadcastElements [.plain] holds (by decide)
    (by decide) (by decide) (by decide) (by decide) (by decide)
  obtain ⟨r3, reorder, holds⟩ := @Holds.registerPair _ _ _ _ .reorderSpans .reorderElements MemoryFormat.all holds (by decide)
    (by decide) (by decide) (by decide) (by decide) (by decide)
  obtain ⟨r4, suppression, holds⟩ := @Holds.registerForTypes _ _ .matrixNms _ _ holds (by decide) [(.f32, .plain)] (by decide)
    (by decide)
  obtain ⟨r5, fourth, holds⟩ := @Holds.setFallback _ _ .matrixNms _ _ holds (by decide)
  obtain ⟨r6, gathering, holds⟩ := @Holds.registerAny _ _ .gatherTree _ _ holds (by decide) (by decide)
  obtain ⟨r7, fifth, holds⟩ := @Holds.setFallback _ _ .gatherTree _ _ holds (by decide)
  have last : builtin = r7 := by
    rw [builtin, registerBuiltin, Run.bindOk pad, Run.bindOk broadcast, Run.bindOk reorder, Run.bindOk suppression,
      Run.bindOk fourth, Run.bindOk gathering, fifth]
  rw [last]
  exact holds

theorem builtinEntries : ∀ e ∈ builtin.entries, ∃ k, Entry k e := fun e member => by
  obtain ⟨k, _, entry⟩ := builtinHolds.entries e member
  exact ⟨k, entry⟩

theorem builtinFallback (kind : OperatorKind) :
    builtin.fallback? kind = some (BuiltinKernel.reference kind).kernel := by
  rw [fallback?, builtinHolds.fallbacks]
  cases kind <;> rfl

end KernelRegistry
end TensorPlan
