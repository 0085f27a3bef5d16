import TensorPlan.Element.UpperWord
import TensorPlan.Proofs.Dispatch.Registration
import TensorPlan.Proofs.Dispatch.Selection
/-! What a selection may be, whatever a cache says. The cache only chooses among the candidates, and a registry offers as
candidates nothing but kernels that fit, so neither a wrong name nor a wrong number can lead out of them. -/
namespace TensorPlan.Selector
variable {s : Selector} {p : KernelParams} {device : Device} {cache : Option TuningCache} {selection : Selection}

theorem selectError {h : Halt} (other : Option TuningCache) :
    (s.select cache p device).1 = .error h ↔ (s.select other p device).1 = .error h := by
  by_cases known : s.registry.knows p.kind = true
  · rw [selectResult known, selectResult known, givenError, givenError]
  · rw [selectUnknown known, selectUnknown known]

theorem selectKind (kinds : ∀ e ∈ s.registry.entries, e.kernel.kind = e.key.kind)
    (ok : (s.select cache p device).1 = .ok selection) : selection.kernel.kind = p.kind := by
  obtain ⟨_, member⟩ | ⟨_, _, _, found⟩ := selectCases ok
  · obtain ⟨e, offered, same⟩ := candidatesOffered member
    rw [← same, kinds e offered.registered, offered.kind]
  · exact KernelRegistry.fallbackKind found

/-- A selection that is no fallback is a registered kernel that fits and may be used, one that fails does so with any
cache and without one, and none fails where a fallback is there and allowed. -/
theorem selectSafe (calls : List RegistryCall) (options : EngineOptions) (cache : Option TuningCache) (p : KernelParams)
    (device : Device) :
    let s : Selector := ⟨.ofCalls calls, options⟩
    (∀ selection, (s.select cache p device).1 = .ok selection →
      (selection.source ≠ .fallback ∧ ∃ e, s.Offers p device e ∧ e.kernel = selection.kernel) ∨
        selection.source = .fallback ∧ s.candidates p device = [] ∧ options.fallback = true ∧
          s.registry.fallback? p.kind = some selection.kernel) ∧
    (∀ other h, (s.select cache p device).1 = .error h ↔ (s.select other p device).1 = .error h) ∧
    ∀ kernel, s.registry.fallback? p.kind = some kernel → options.fallback = true →
      ∃ selection, (s.select cache p device).1 = .ok selection ∧ selection.kernel.kind = p.kind := by
  intro s
  refine ⟨fun selection ok => ?_, fun other h => selectError other, fun kernel found allowed => ?_⟩
  · exact (selectCases ok).imp_left fun own => ⟨own.1, candidatesOffered own.2⟩
  · obtain ⟨selection, ok⟩ := @selectFallbackOk s p device cache kernel found allowed
    exact ⟨selection, ok, selectKind (KernelRegistry.ofCallsKinds calls) ok⟩

theorem selectSafeOfStaleName :
    let kernel := BuiltinKernel.gatherTree.kernel
    let calls : List RegistryCall :=
      [.registerAny kernel [.allKnown], .register ⟨.pad, none, none, .allKnown⟩ kernel, .setFallback kernel]
    let p : KernelParams := ⟨.gatherTree, [.ofShape (.ofDims [1]) .i32 .plain], []⟩
    let cache := TuningCache.empty.store p 4 "gone" 1
    ∃ selection, ((⟨.ofCalls calls, .unset⟩ : Selector).select cache p (.ofUnits 0 .cpu 4)).1 = .ok selection ∧
      selection.kernel.kind = .gatherTree := by
  intro kernel calls p cache
  exact (selectSafe calls .unset cache p (.ofUnits 0 .cpu 4)).2.2 kernel rfl rfl

end TensorPlan.Selector
