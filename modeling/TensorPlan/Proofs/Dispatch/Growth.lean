import TensorPlan.Element.UpperWord
import TensorPlan.Proofs.Dispatch.Registration
/-! How registries grow. A call puts entries behind the others, key by key up to one that is refused, or a fallback for an
operator kind that has none. So numbers remain places, a name stands once under a key, and what is registered stays. -/
namespace TensorPlan

namespace KernelRegistry
variable {r next last : KernelRegistry} {kernel k : Kernel} {key : KernelKey} {kind : OperatorKind}

structure Regular (r : KernelRegistry) : Prop where
  numbered : ∀ i (e : KernelEntry), r.entries[i]? = some e → e.order = i
  distinct : (r.entries.map fun e => (e.key, e.kernel.name)).Nodup
  kinds : ∀ e ∈ r.entries, e.kernel.kind = e.key.kind
  fallbacks : (r.fallbacks.map Kernel.kind).Nodup

theorem emptyRegular : empty.Regular where
  numbered _ _ found := by cases found
  distinct := List.nodup_nil
  kinds _ member := (List.not_mem_nil member).elim
  fallbacks := List.nodup_nil

theorem Regular.entry (regular : r.Regular) (admits : r.Admits key kernel) :
    Regular ⟨r.entries ++ [⟨key, kernel, r.entries.length⟩], r.fallbacks⟩ := by
  refine ⟨fun i e found => ?_, ?_, fun e member => ?_, regular.fallbacks⟩
  · rw [List.getElem?_append] at found
    split at found
    · exact regular.numbered i e found
    · obtain ⟨place, own⟩ := List.getElem?_eq_some_iff.mp found
      have first : i = r.entries.length := by simp only [List.length_singleton] at place; omega
      subst first
      simp only [Nat.sub_self, List.getElem_cons_zero] at own
      rw [← own]
  · rw [List.map_append, List.nodup_append]
    refine ⟨regular.distinct, List.nodup_singleton _, fun a old b new same => ?_⟩
    obtain ⟨e, member, rfl⟩ := List.mem_map.mp old
    rw [List.map_singleton, List.mem_singleton, ← same, Prod.mk.injEq] at new
    exact admits.free e member new.1 new.2
  · rcases List.mem_append.mp member with old | new
    · exact regular.kinds e old
    · rw [List.mem_singleton.mp new]
      exact admits.kind

theorem fallbackMissing : r.fallback? kind = none ↔ ∀ k ∈ r.fallbacks, k.kind ≠ kind := by
  simp [fallback?, List.find?_eq_none]

theorem Regular.fallback (regular : r.Regular) (missing : r.fallback? kernel.kind = none) :
    Regular ⟨r.entries, r.fallbacks ++ [kernel]⟩ := by
  refine ⟨regular.numbered, regular.distinct, regular.kinds, ?_⟩
  rw [List.map_append, List.nodup_append]
  refine ⟨regular.fallbacks, List.nodup_singleton _, fun a old b new same => ?_⟩
  obtain ⟨k, member, rfl⟩ := List.mem_map.mp old
  rw [List.map_singleton, List.mem_singleton, ← same] at new
  exact fallbackMissing.mp missing k member new

theorem ofCallsRegular (calls : List RegistryCall) : (ofCalls calls).Regular :=
  ofCallsKeeps (fun _ _ _ admits regular => regular.entry admits) (fun _ _ missing regular => regular.fallback missing)
    emptyRegular calls

theorem Regular.fallbackOnly (regular : r.Regular) : r.fallback? kind = some k ↔ k ∈ r.fallbacks ∧ k.kind = kind := by
  constructor
  · exact fun found => ⟨List.mem_of_find?_eq_some found, fallbackKind found⟩
  · rintro ⟨member, own⟩
    cases found : r.fallback? kind with
    | none => exact (fallbackMissing.mp found k member own).elim
    | some other =>
      have same := (List.inj_on_of_nodup_map regular.fallbacks) (List.mem_of_find?_eq_some found) member
        ((fallbackKind found).trans own.symm)
      rw [same]

theorem knowsSome : r.knows kind = true ↔ (∃ e ∈ r.entries, e.key.kind = kind) ∨ ∃ k ∈ r.fallbacks, k.kind = kind := by
  have some : (r.fallback? kind).isSome = true ↔ ∃ k ∈ r.fallbacks, k.kind = kind := by
    simp [fallback?, List.find?_isSome]
  rw [knows, Bool.or_eq_true, some, or_comm]
  simp

structure Grows (r next : KernelRegistry) : Prop where
  entries : r.entries <+: next.entries
  fallbacks : r.fallbacks <+: next.fallbacks

theorem Grows.refl (r : KernelRegistry) : r.Grows r := ⟨List.prefix_refl _, List.prefix_refl _⟩

theorem Grows.trans (first : r.Grows next) (second : next.Grows last) : r.Grows last :=
  ⟨first.entries.trans second.entries, first.fallbacks.trans second.fallbacks⟩

theorem callGrows (r : KernelRegistry) (call : RegistryCall) : r.Grows (call.registering.run r).2 :=
  callKeeps (fun _ _ _ _ grows => grows.trans ⟨List.prefix_append _ _, List.prefix_refl _⟩)
    (fun _ _ _ grows => grows.trans ⟨List.prefix_refl _, List.prefix_append _ _⟩) call (.refl r)

theorem ofCallsGrows (calls more : List RegistryCall) : (ofCalls calls).Grows (ofCalls (calls ++ more)) := by
  unfold ofCalls
  rw [List.foldl_append]
  generalize calls.foldl (fun r (call : RegistryCall) => (call.registering.run r).2) empty = r
  induction more generalizing r with
  | nil => exact .refl r
  | cons call more ih => exact (callGrows r call).trans (ih _)

inductive Registers (kernel : Kernel) : KernelRegistry → List KernelKey → Except Halt Unit × KernelRegistry → Prop where
  | done (r : KernelRegistry) : Registers kernel r [] (.ok (), r)
  | next {r key keys ending} (admits : r.Admits key kernel)
      (rest : Registers kernel ⟨r.entries ++ [⟨key, kernel, r.entries.length⟩], r.fallbacks⟩ keys ending) :
      Registers kernel r (key :: keys) ending
  | refused {r key keys} (h : Halt) (refuses : ¬ r.Admits key kernel) : Registers kernel r (key :: keys) (.error h, r)

theorem registerEnds (r : KernelRegistry) (key : KernelKey) (kernel : Kernel) :
    (r.Admits key kernel ∧
        (register key kernel).run r = (Except.ok (), ⟨r.entries ++ [⟨key, kernel, r.entries.length⟩], r.fallbacks⟩)) ∨
      ¬ r.Admits key kernel ∧ ∃ h, (register key kernel).run r = (Except.error h, r) := by
  obtain made | ⟨h, failed⟩ := registerCases r key kernel
  · exact .inl made
  · refine .inr ⟨fun admits => ?_, h, failed⟩
    rw [registerOk admits.kind.symm admits.free] at failed
    cases failed

theorem registerAllEnds (r : KernelRegistry) (kernel : Kernel) (keys : List KernelKey) :
    Registers kernel r keys ((registerAll kernel keys).run r) := by
  induction keys generalizing r with
  | nil => exact .done r
  | cons key keys ih =>
    rw [registerAll]
    obtain ⟨admits, made⟩ | ⟨refuses, h, failed⟩ := registerEnds r key kernel
    · rw [Run.bindOk made]
      exact .next admits (ih _)
    · rw [Run.bindError failed]
      exact .refused h refuses

end KernelRegistry

namespace RegistryCall
open KernelRegistry (Registers)

inductive Ends (r : KernelRegistry) : RegistryCall → Except Halt Unit × KernelRegistry → Prop where
  | register {key kernel ending} (registers : Registers kernel r [key] ending) : Ends r (.register key kernel) ending
  | registerForTypes {kernel types modes ending}
      (registers : Registers kernel r (modes.flatMap fun mode => types.map fun t => ⟨kernel.kind, some t.1, some t.2, mode⟩)
        ending) : Ends r (.registerForTypes kernel types modes) ending
  | registerAny {kernel modes ending}
      (registers : Registers kernel r (modes.map fun mode => ⟨kernel.kind, none, none, mode⟩) ending) :
      Ends r (.registerAny kernel modes) ending
  | fallback {kernel} (missing : r.fallback? kernel.kind = none) :
      Ends r (.setFallback kernel) (.ok (), ⟨r.entries, r.fallbacks ++ [kernel]⟩)
  | fallbackTaken {kernel k} (h : Halt) (taken : r.fallback? kernel.kind = some k) :
      Ends r (.setFallback kernel) (.error h, r)

theorem ends (r : KernelRegistry) (call : RegistryCall) : call.Ends r (call.registering.run r) := by
  cases call with
  | register key kernel =>
    refine .register ?_
    obtain ⟨admits, made⟩ | ⟨refuses, h, failed⟩ := KernelRegistry.registerEnds r key kernel
    · rw [registering, made]
      exact .next admits (.done _)
    · rw [registering, failed]
      exact .refused h refuses
  | registerForTypes kernel types modes => exact .registerForTypes (KernelRegistry.registerAllEnds r kernel _)
  | registerAny kernel modes => exact .registerAny (KernelRegistry.registerAllEnds r kernel _)
  | setFallback kernel =>
    cases found : r.fallback? kernel.kind with
    | none =>
      rw [registering, KernelRegistry.setFallbackOk found]
      exact .fallback found
    | some k =>
      obtain ⟨missing, _⟩ | ⟨h, failed⟩ := KernelRegistry.setFallbackCases r kernel
      · cases found.symm.trans missing
      · rw [registering, failed]
        exact .fallbackTaken h found

end RegistryCall

namespace KernelRegistry
variable {r : KernelRegistry} {key : KernelKey} {kernel : Kernel} {h : Halt}

theorem registerFailed (failed : ((register key kernel).run r).1 = .error h) : ((register key kernel).run r).2 = r := by
  obtain ⟨_, made⟩ | ⟨_, _, same⟩ := registerEnds r key kernel
  · rw [made] at failed
    cases failed
  · rw [same]

theorem setFallbackFailed (failed : ((setFallback kernel).run r).1 = .error h) : ((setFallback kernel).run r).2 = r := by
  obtain ⟨_, made⟩ | ⟨_, same⟩ := setFallbackCases r kernel
  · rw [made] at failed
    cases failed
  · rw [same]

/-- Whatever calls came before, failed ones included: the registry is regular, it knows the kinds that it has a kernel for,
a call ends as its keys are free or taken, a failed one for a single key or a fallback changes nothing, and nothing is
ever removed or replaced. -/
theorem historyRegular (calls : List RegistryCall) :
    let r := ofCalls calls
    r.Regular ∧
      (∀ kind kernel, r.fallback? kind = some kernel ↔ kernel ∈ r.fallbacks ∧ kernel.kind = kind) ∧
      (∀ kind, r.knows kind = true ↔ (∃ e ∈ r.entries, e.key.kind = kind) ∨ ∃ kernel ∈ r.fallbacks, kernel.kind = kind) ∧
      (∀ call : RegistryCall, call.Ends r (call.registering.run r)) ∧
      (∀ key kernel h, ((register key kernel).run r).1 = .error h → ((register key kernel).run r).2 = r) ∧
      (∀ kernel h, ((setFallback kernel).run r).1 = .error h → ((setFallback kernel).run r).2 = r) ∧
      ∀ more, r.Grows (ofCalls (calls ++ more)) :=
  ⟨ofCallsRegular calls, fun _ _ => (ofCallsRegular calls).fallbackOnly, fun _ => knowsSome, RegistryCall.ends _,
    fun _ _ _ => registerFailed, fun _ _ => setFallbackFailed, ofCallsGrows calls⟩

theorem historyRegularOfRepeats :
    let kernel := BuiltinKernel.gatherTree.kernel
    let twice : RegistryCall := .registerForTypes kernel [(.i32, .plain), (.i32, .plain), (.f32, .plain)] [.allKnown]
    let r := ofCalls [twice, .setFallback kernel, .setFallback BuiltinKernel.gatherTree.kernel]
    r.entries.length = 1 ∧ r.Regular ∧ r.fallbacks.length = 1 ∧ r.knows .gatherTree = true ∧ r.knows .pad = false ∧
      (∃ h, ((setFallback kernel).run r).1 = .error h) ∧ ((setFallback kernel).run r).2 = r := by
  intro kernel twice r
  obtain ⟨regular, _, _, _, _, unchanged, _⟩ := historyRegular
    [twice, .setFallback kernel, .setFallback BuiltinKernel.gatherTree.kernel]
  have failed : ((setFallback kernel).run r).1 = .error (.error (.fallbackTaken .gatherTree "gather_tree_ref")) := rfl
  exact ⟨rfl, regular, rfl, rfl, rfl, ⟨_, failed⟩, unchanged kernel _ failed⟩

end KernelRegistry
end TensorPlan
