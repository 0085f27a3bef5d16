import TensorPlan.Element.UpperWord
import TensorPlan.Proofs.Session.Likeness
/-! Executors without a memory. The plan that an executor keeps is the one that it would make anew for all
inputs it is reused for. Every call keeps this, also one that fails, so no call tells whether others came before. -/
namespace TensorPlan.NodeExecutor

def executeAll : NodeExecutor → List (Schedule × List Tensor) → List (Result (List Tensor))
  | _, [] => []
  | e, (s, inputs) :: calls =>
    let (result, e) := e.execute s inputs
    result :: e.executeAll calls

def fresh (e : NodeExecutor) : NodeExecutor := { e with plan := none }

def Consistent (e : NodeExecutor) : Prop :=
  ∀ plan inputs, e.plan = some plan → plan.isReusableFor inputs = true → e.newPlan inputs = .ok plan

theorem reusableFor {plan : ExecutionPlan} {inputs : List Tensor} :
    plan.isReusableFor inputs = true ↔ plan.validity = .lasting ∧ plan.inputs = inputs.map Tensor.descriptor := by
  simp [ExecutionPlan.isReusableFor]

theorem newPlanFresh (e : NodeExecutor) (inputs : List Tensor) : e.fresh.newPlan inputs = e.newPlan inputs := rfl

theorem newPlanCases {e : NodeExecutor} {inputs : List Tensor} {plan : ExecutionPlan} (ok : e.newPlan inputs = .ok plan) :
    e.kernel.plan e.attributes inputs (.ofThreads e.threads e.selection.config) = .ok plan ∧
      e.checkOutputs plan = .ok () := by
  simp only [newPlan, Result.bindOk] at ok
  obtain ⟨_, made, _, checked, last⟩ := ok
  cases last
  exact ⟨made, checked⟩

theorem newPlanOk {e : NodeExecutor} {inputs : List Tensor} {plan : ExecutionPlan}
    (made : e.kernel.plan e.attributes inputs (.ofThreads e.threads e.selection.config) = .ok plan)
    (checked : e.checkOutputs plan = .ok ()) : e.newPlan inputs = .ok plan := by
  simp only [newPlan, made, checked, Result.okBind, Result.pureOk]

section
variable [Widths]

theorem keptConsistent {e : NodeExecutor} {k : BuiltinKernel} (builtin : e.kernel = k.kernel) {inputs : List Tensor}
    {plan : ExecutionPlan} (ok : e.newPlan inputs = .ok plan) : ({ e with plan := some plan } : NodeExecutor).Consistent := by
  intro kept given held reusable
  cases held
  obtain ⟨made, checked⟩ := newPlanCases ok
  obtain ⟨lasting, same⟩ := reusableFor.mp reusable
  rw [builtin] at made
  have again := BuiltinKernel.planLasting made lasting (same.symm.trans (BuiltinKernel.planDescriptors made).1)
  rw [← newPlanFresh]
  exact newPlanOk (e := e.fresh) (by rw [show e.fresh.kernel = k.kernel from builtin]; exact again) checked

theorem prepareConsistent {e : NodeExecutor} {k : BuiltinKernel} (builtin : e.kernel = k.kernel) (consistent : e.Consistent)
    (inputs : List Tensor) : (e.prepare inputs).1 = e.newPlan inputs ∧ (e.prepare inputs).2.fresh = e.fresh ∧
      (e.prepare inputs).2.Consistent := by
  unfold prepare
  cases reused : e.plan.filter fun p => p.isReusableFor inputs with
  | some plan =>
    rw [Option.filter_eq_some_iff] at reused
    exact ⟨(consistent plan inputs reused.1 reused.2).symm, rfl, consistent⟩
  | none =>
    cases made : e.newPlan inputs with
    | ok plan => exact ⟨rfl, rfl, keptConsistent builtin made⟩
    | error h => exact ⟨rfl, rfl, consistent⟩

theorem executeConsistent {e : NodeExecutor} {k : BuiltinKernel} (builtin : e.kernel = k.kernel) (consistent : e.Consistent)
    (s : Schedule) (inputs : List Tensor) : (e.execute s inputs).1 = (e.fresh.execute s inputs).1 ∧
      (e.execute s inputs).2.fresh = e.fresh ∧ (e.execute s inputs).2.Consistent := by
  obtain ⟨same, kept, after⟩ := prepareConsistent builtin consistent inputs
  obtain ⟨same', kept', _⟩ := prepareConsistent (e := e.fresh) builtin (fun _ _ held => by cases held) inputs
  rw [newPlanFresh, ← same] at same'
  unfold execute
  generalize e.prepare inputs = first at same kept after same'
  generalize e.fresh.prepare inputs = second at same' kept'
  obtain ⟨plan, e'⟩ := first
  obtain ⟨plan', e''⟩ := second
  cases same'
  cases plan with
  | error h => exact ⟨rfl, kept, after⟩
  | ok plan =>
    refine ⟨?_, kept, after⟩
    have same : e'.fresh = e''.fresh := kept.trans kept'.symm
    have kernels : e'.fresh.kernel = e''.fresh.kernel := congrArg kernel same
    change e'.runPlan s plan inputs = e''.runPlan s plan inputs
    simp only [runPlan, show e'.kernel = e''.kernel from kernels]

theorem executeAllConsistent {e : NodeExecutor} {k : BuiltinKernel} (builtin : e.kernel = k.kernel) (consistent : e.Consistent)
    (calls : List (Schedule × List Tensor)) : e.executeAll calls = calls.map fun c => (e.fresh.execute c.1 c.2).1 := by
  -- Each call leaves a consistent executor with the same fresh one, whether or not it fails.
  induction calls generalizing e with
  | nil => rfl
  | cons call calls ih =>
    obtain ⟨s, inputs⟩ := call
    obtain ⟨same, kept, after⟩ := executeConsistent builtin consistent s inputs
    have kernel : (e.execute s inputs).2.kernel = k.kernel := (congrArg NodeExecutor.kernel kept).trans builtin
    change (e.execute s inputs).1 :: (e.execute s inputs).2.executeAll calls = _
    rw [ih kernel after, kept, same, List.map_cons]

/-- Every call on an executor of a kernel that comes with the library has the result that it has on a fresh one. There it has
the same result under all schedules, except that gathering may report another invalid parent. -/
theorem executeAllFresh (k : BuiltinKernel) (name : String) (attributes : Attributes) (config : Nat)
    (source : SelectionSource) (expected : List Slot) (threads : Nat) (calls : List (Schedule × List Tensor)) :
    let fresh := create name attributes ⟨k.kernel, config, source⟩ expected threads
    fresh.executeAll calls = (calls.map fun c => (fresh.execute c.1 c.2).1) ∧
      ∀ s s' inputs, (fresh.execute s inputs).1 = (fresh.execute s' inputs).1 ∨
        attributes = .gatherTree ∧ GatherTreePlan.BothStray (fresh.execute s inputs).1 (fresh.execute s' inputs).1 := by
  refine ⟨executeAllConsistent rfl (fun _ _ held => by cases held) calls, fun s s' inputs => ?_⟩
  obtain same | ⟨apart, stray⟩ := @executeAlike name attributes ⟨k.kernel, config, source⟩ ⟨k.kernel, config, source⟩ expected
    threads threads inputs (BuiltinKernel.selfAlike _ _ k attributes) (.inl rfl) s s'
  · exact .inl same
  · exact .inr ⟨apart.1, stray⟩

end

theorem executeAllFreshOfFailure :
    let inputs (parent : UInt8) : List Tensor := [⟨.plain [1, 1, 1] .u8, [3], rfl⟩, ⟨.plain [1, 1, 1] .u8, [parent], rfl⟩,
      ⟨.plain [1] .u8, [1], rfl⟩, ⟨.plain [] .u8, [0], rfl⟩]
    let fresh := create "n" .gatherTree ⟨BuiltinKernel.gatherTree.kernel, 0, .fallback⟩ [] 1
    ∃ plan out, (fresh.execute .inOrder (inputs 0)).2.plan = some plan ∧ plan.isReusableFor (inputs 1) = true ∧ out.data = [3] ∧
      fresh.executeAll [(.inOrder, inputs 0), (.inOrder, inputs 1), (.inOrder, inputs 0)] =
        [.ok [out], Result.fail (.parentRange (Binary.ofInt .double 1) 0 0 1), .ok [out]] := by
  intro inputs fresh
  obtain ⟨plan, kept⟩ : ∃ plan, (fresh.execute .inOrder (inputs 0)).2.plan = some plan := ⟨_, rfl⟩
  refine ⟨plan, ⟨.plain [1, 1, 1] .u8, [3], rfl⟩, kept, ?_, rfl, ?_⟩
  · cases kept
    decide
  · rw [(executeAllFresh .gatherTree "n" .gatherTree 0 .fallback [] 1 _).1]
    decide +kernel

end TensorPlan.NodeExecutor
