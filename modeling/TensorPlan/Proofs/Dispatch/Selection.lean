import TensorPlan.Dispatch.Selector
import TensorPlan.Proofs.Dispatch.Registry
/-! What can be selected. A cache, a configuration, a device and the options decide which kernel is taken, but it
is always an entry of the registry that fits and supports the parameters, or the fallback of the operator kind. -/
namespace TensorPlan

namespace KernelRegistry

theorem insertBestMember {best : List KernelEntry} {new e : KernelEntry} (member : e ∈ insertBest best new) :
    e ∈ best ∨ e = new := by
  induction best with
  | nil => exact .inr (List.mem_singleton.mp member)
  | cons b bs ih =>
    unfold insertBest at member
    split at member
    · rcases List.mem_cons.mp member with own | rest
      · split at own
        · exact .inr own
        · exact .inl (by rw [own]; exact List.mem_cons_self)
      · exact .inl (List.mem_cons_of_mem _ rest)
    · rcases List.mem_cons.mp member with own | rest
      · exact .inl (by rw [own]; exact List.mem_cons_self)
      · rcases ih rest with old | same
        · exact .inl (List.mem_cons_of_mem _ old)
        · exact .inr same

theorem bestMember {entries best : List KernelEntry} {e : KernelEntry} (member : e ∈ entries.foldl insertBest best) :
    e ∈ best ∨ e ∈ entries := by
  induction entries generalizing best with
  | nil => exact .inl member
  | cons new entries ih =>
    rcases ih member with inserted | later
    · rcases insertBestMember inserted with old | same
      · exact .inl old
      · exact .inr (by rw [same]; exact List.mem_cons_self)
    · exact .inr (List.mem_cons_of_mem _ later)

theorem candidatesMember {r : KernelRegistry} {kind : OperatorKind} {type : Option ElementType}
    {format : Option MemoryFormat} {mode : ShapeMode} {e : KernelEntry} (member : e ∈ r.candidates kind type format mode) :
    e ∈ r.entries ∧ e.key.kind = kind ∧ e.key.mode = mode ∧ e.key.accepts type format = true := by
  rcases bestMember member with impossible | fitting
  · exact (List.not_mem_nil impossible).elim
  · obtain ⟨inside, fits⟩ := List.mem_filter.mp fitting
    simp only [Bool.and_eq_true, beq_iff_eq] at fits
    exact ⟨inside, fits.1.1, fits.1.2, fits.2⟩

end KernelRegistry

namespace Selector
variable {s : Selector} {p : KernelParams} {device : Device} {cache : Option TuningCache} {selection : Selection}
  {hit : Option CacheEntry}

structure Offers (s : Selector) (p : KernelParams) (device : Device) (e : KernelEntry) : Prop where
  registered : e ∈ s.registry.entries
  kind : e.key.kind = p.kind
  mode : e.key.mode = p.mode
  type : e.key.type = none ∨ e.key.type = p.type?
  format : e.key.format = none ∨ e.key.format = p.format?
  supported : e.kernel.supports p = true
  dynamic : e.key.mode = .someUnknown → s.options.dynamicShapes = true
  device : ∀ f, p.format? = some f → device.supports f = true

theorem candidatesOffered {k : Kernel} (member : k ∈ s.candidates p device) :
    ∃ e, s.Offers p device e ∧ e.kernel = k := by
  unfold candidates at member
  split at member
  · exact (List.not_mem_nil member).elim
  · rename_i dynamic
    split at member
    · exact (List.not_mem_nil member).elim
    · rename_i formats
      obtain ⟨e, sorted, same⟩ := List.mem_map.mp member
      rw [List.mem_mergeSort] at sorted
      obtain ⟨fitting, supported⟩ := List.mem_filter.mp sorted
      obtain ⟨inside, kind, mode, accepted⟩ := KernelRegistry.candidatesMember fitting
      simp only [KernelKey.accepts, KernelKey.fits, Bool.and_eq_true, Bool.or_eq_true, Option.isNone_iff_eq_none,
        decide_eq_true_eq] at accepted
      refine ⟨e, ⟨inside, kind, mode, accepted.1, accepted.2, supported, fun some => ?_, fun f own => ?_⟩, same⟩
      · simpa [← mode, some] using dynamic
      · simpa [own] using formats

def hit? (s : Selector) (cache : Option TuningCache) (p : KernelParams) (device : Device) : Option CacheEntry :=
  if s.options.tuning = .disabled then none else cache.bind fun c => (c.load p device.units).1

def selectGiven (s : Selector) (hit : Option CacheEntry) (p : KernelParams) (device : Device) : Result Selection :=
  match tuned? (s.candidates p device) hit with
  | some selection => .ok selection
  | none => s.selectAlone p device

theorem selectWithGiven (s : Selector) (c : TuningCache) (p : KernelParams) (device : Device) :
    (s.selectWith c p device).1 = s.selectGiven (c.load p device.units).1 p device := by
  unfold selectWith selectGiven selectAlone
  dsimp only
  cases tuned? (s.candidates p device) (c.load p device.units).1 with
  | some selection => rfl
  | none => cases s.candidates p device <;> rfl

theorem selectResult (known : s.registry.knows p.kind = true) :
    (s.select cache p device).1 = s.selectGiven (s.hit? cache p device) p device := by
  unfold select hit?
  rw [if_pos known]
  cases tuning : s.options.tuning with
  | disabled => cases cache <;> rfl
  | useExisting | useAndUpdate =>
    cases cache with
    | none => rfl
    | some c => exact selectWithGiven s c p device

theorem selectUnknown (unknown : ¬ s.registry.knows p.kind = true) :
    s.select cache p device = (.fail (.noKernels p.kind), cache) := by
  unfold select
  rw [if_neg unknown]

theorem tunedCases {kernels : List Kernel} (tuned : tuned? kernels hit = some selection) :
    ∃ e, hit = some e ∧ selection.kernel ∈ kernels ∧ selection = ⟨selection.kernel, e.index, .tuned⟩ := by
  simp only [tuned?, Option.bind_eq_bind, Option.bind_eq_some_iff] at tuned
  obtain ⟨e, own, kernel, named, same⟩ := tuned
  cases same
  exact ⟨e, own, List.mem_of_find?_eq_some named, rfl⟩

theorem fallbackCases (ok : s.selectFallback p = .ok selection) : s.options.fallback = true ∧
    s.registry.fallback? p.kind = some selection.kernel ∧ selection = ⟨selection.kernel, 0, .fallback⟩ := by
  unfold selectFallback at ok
  split at ok
  · rename_i allowed
    simp only [Result.bindOk, Result.ofOptionOk] at ok
    obtain ⟨kernel, found, last⟩ := ok
    cases last
    exact ⟨allowed, found, rfl⟩
  · exact (Result.failNotOk ok).elim

theorem aloneCases (ok : s.selectAlone p device = .ok selection) :
    (∃ kernels, s.candidates p device = selection.kernel :: kernels ∧ selection = ⟨selection.kernel, 0, .heuristic⟩) ∨
      s.candidates p device = [] ∧ s.selectFallback p = .ok selection := by
  unfold selectAlone at ok
  split at ok
  · rename_i kernel kernels candidates
    cases ok
    exact .inl ⟨kernels, candidates, rfl⟩
  · rename_i candidates
    exact .inr ⟨candidates, ok⟩

theorem givenCases (ok : s.selectGiven hit p device = .ok selection) :
    (selection.kernel ∈ s.candidates p device ∧ selection.source ≠ .fallback) ∨
      s.candidates p device = [] ∧ s.selectFallback p = .ok selection := by
  unfold selectGiven at ok
  split at ok
  · rename_i own tuned
    cases ok
    obtain ⟨e, _, member, same⟩ := tunedCases tuned
    rw [same]
    exact .inl ⟨member, nofun⟩
  · obtain ⟨kernels, candidates, same⟩ | alone := aloneCases ok
    · rw [same, candidates]
      exact .inl ⟨List.mem_cons_self, nofun⟩
    · exact .inr alone

theorem selectCases (ok : (s.select cache p device).1 = .ok selection) :
    (selection.source ≠ .fallback ∧ selection.kernel ∈ s.candidates p device) ∨
      selection.source = .fallback ∧ s.candidates p device = [] ∧ s.options.fallback = true ∧
        s.registry.fallback? p.kind = some selection.kernel := by
  by_cases known : s.registry.knows p.kind = true
  · rw [selectResult known] at ok
    obtain ⟨member, source⟩ | ⟨none, fallback⟩ := givenCases ok
    · exact .inl ⟨source, member⟩
    · obtain ⟨allowed, found, same⟩ := fallbackCases fallback
      exact .inr ⟨congrArg Selection.source same, none, allowed, found⟩
  · rw [selectUnknown known] at ok
    cases ok

theorem selectUncached (ok : (s.select none p device).1 = .ok selection) : selection.config = 0 := by
  by_cases known : s.registry.knows p.kind = true
  · have missed : s.hit? none p device = none := by unfold hit?; split <;> rfl
    rw [selectResult known, missed] at ok
    obtain ⟨_, _, same⟩ | ⟨_, fallback⟩ := aloneCases ok
    · rw [same]
    · rw [(fallbackCases fallback).2.2]
  · rw [selectUnknown known] at ok
    cases ok

theorem givenError {h : Halt} : s.selectGiven hit p device = .error h ↔ s.selectAlone p device = .error h := by
  unfold selectGiven
  split
  · rename_i selection tuned
    obtain ⟨e, _, member, _⟩ := tunedCases tuned
    unfold selectAlone
    cases candidates : s.candidates p device with
    | nil => rw [candidates] at member; cases member
    | cons kernel kernels => exact ⟨nofun, nofun⟩
  · rfl

theorem selectFallbackOk {kernel : Kernel} (found : s.registry.fallback? p.kind = some kernel)
    (allowed : s.options.fallback = true) : ∃ selection, (s.select cache p device).1 = .ok selection := by
  have known : s.registry.knows p.kind = true := by
    rw [KernelRegistry.knows, found]; rfl
  cases result : (s.select cache p device).1 with
  | ok selection => exact ⟨selection, rfl⟩
  | error h =>
    rw [selectResult known, givenError] at result
    unfold selectAlone at result
    split at result
    · cases result
    · rw [selectFallback, if_pos allowed, found] at result
      cases result

def Eligible (s : Selector) (p : KernelParams) (device : Device) (k : Kernel) : Prop :=
  k ∈ s.candidates p device ∨ s.registry.fallback? p.kind = some k

theorem selectEligible (ok : (s.select cache p device).1 = .ok selection) : s.Eligible p device selection.kernel :=
  (selectCases ok).imp And.right fun fallback => fallback.2.2.2

theorem selectSome [Widths] (builtin : s.registry = .builtin) (allowed : s.options.fallback = true) (cache : Option TuningCache) :
    ∃ selection, (s.select cache p device).1 = .ok selection := by
  have found : s.registry.fallback? p.kind = some (BuiltinKernel.reference p.kind).kernel := by
    rw [builtin, KernelRegistry.builtinFallback]
  exact selectFallbackOk found allowed

theorem builtinEligible [Widths] (builtin : s.registry = .builtin) {kernel : Kernel} (eligible : s.Eligible p device kernel) :
    ∃ k : BuiltinKernel, kernel = k.kernel ∧ k.kind = p.kind ∧ k.supports p = true ∧
      (k = .broadcastBlocks → p.format? = some .plain) := by
  rcases eligible with candidate | fallback
  · obtain ⟨e, offered, same⟩ := candidatesOffered candidate
    have inside := offered.registered
    rw [builtin] at inside
    obtain ⟨k, entry⟩ := KernelRegistry.builtinEntries e inside
    have supported := offered.supported
    rw [entry.kernel] at same supported
    refine ⟨k, same.symm, entry.kind.symm.trans offered.kind, supported, fun blocks => ?_⟩
    have format := offered.format
    rw [entry.plain blocks] at format
    exact (format.resolve_left (Option.some_ne_none _)).symm
  · rw [builtin, KernelRegistry.builtinFallback] at fallback
    refine ⟨.reference p.kind, (Option.some.inj fallback).symm, BuiltinKernel.referenceKind _,
      BuiltinKernel.referenceSupports _ _, fun blocks => ?_⟩
    cases kind : p.kind <;> rw [kind] at blocks <;> cases blocks

end Selector
end TensorPlan
