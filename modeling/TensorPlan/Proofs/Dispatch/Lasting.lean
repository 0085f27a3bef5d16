import TensorPlan.Dispatch.Builtin
import TensorPlan.Proofs.Broadcast.Agreement
import TensorPlan.Proofs.GatherTree.Execution
import TensorPlan.Proofs.Nms.Execution
import TensorPlan.Proofs.Operator.Slots
import TensorPlan.Proofs.Pad.Agreement
import TensorPlan.Proofs.Reorder.Agreement
/-! Lasting plans. A plan that is said to last was made from the attributes, the context and the descriptors of
the inputs alone, so planning for other tensors with these descriptors gives the same plan. -/
namespace TensorPlan
variable {inputs given : List Tensor}

theorem Tensor.sameHead (same : given.map Tensor.descriptor = inputs.map Tensor.descriptor) :
    (inputs.head? = none ∧ given.head? = none) ∨ ∃ data other, inputs.head? = some data ∧ given.head? = some other ∧
      other.descriptor = data.descriptor := by
  have heads := congrArg List.head? same
  rw [List.head?_map, List.head?_map] at heads
  cases first : inputs.head? with
  | none =>
    rw [first] at heads
    exact .inl ⟨rfl, Option.map_eq_none_iff.mp heads⟩
  | some data =>
    rw [first] at heads
    obtain ⟨other, found, described⟩ := Option.map_eq_some_iff.mp heads
    exact .inr ⟨data, other, rfl, found, described⟩

theorem Tensor.sameAll (same : given.map Tensor.descriptor = inputs.map Tensor.descriptor) (condition : Descriptor → Prop)
    (all : ∀ t ∈ inputs, condition t.descriptor) : ∀ t ∈ given, condition t.descriptor := by
  intro t member
  have inside : t.descriptor ∈ inputs.map Tensor.descriptor := by
    rw [← same]; exact List.mem_map_of_mem member
  obtain ⟨s, here, described⟩ := List.mem_map.mp inside
  rw [← described]; exact all s here

theorem PadRequest.ofInputsSame [Widths] {a : PadAttributes} (constant : a.isDataDependent = false)
    (same : given.map Tensor.descriptor = inputs.map Tensor.descriptor) : ofInputs a given = ofInputs a inputs := by
  obtain ⟨mode, before, after, value⟩ := a
  match before, after, value, constant with
  | some before, some after, some value, _ =>
    unfold ofInputs
    obtain ⟨missing, missing'⟩ | ⟨data, other, first, found, described⟩ := Tensor.sameHead same
    · rw [missing, missing']; rfl
    · simp only [first, found, Result.ofOptionSome, Result.okBind, described, resolveWidths]

theorem BroadcastPlan.ofInputsSame {a : BroadcastAttributes} (constant : a.isDataDependent = false)
    (same : given.map Tensor.descriptor = inputs.map Tensor.descriptor) : ofInputs a given = ofInputs a inputs := by
  obtain ⟨target, axes⟩ := a
  match target, constant with
  | some dims, _ =>
    unfold ofInputs
    obtain ⟨missing, missing'⟩ | ⟨data, other, first, found, described⟩ := Tensor.sameHead same
    · rw [missing, missing']; rfl
    · simp only [first, found, Result.ofOptionSome, Result.okBind, described, resolveTarget]

theorem ReorderPlan.resolveMeanSame [Widths] {a : ReorderAttributes} {mean : List Double}
    (same : given.map Tensor.descriptor = inputs.map Tensor.descriptor) (ok : resolveMean a inputs = .ok (mean, true)) :
    resolveMean a given = .ok (mean, true) := by
  unfold resolveMean at ok ⊢
  by_cases ignored : a.meanMode = .ignore
  · rw [if_pos ignored] at ok ⊢
    exact ok
  · rw [if_neg ignored] at ok ⊢
    cases second : inputs[1]? with
    | some t =>
      simp only [second, Result.bindOk] at ok
      obtain ⟨_, _, last⟩ := ok
      cases last
    | none =>
      have missing : given[1]? = none := by
        rw [List.getElem?_eq_none_iff] at second ⊢
        have lengths := congrArg List.length same
        simp only [List.length_map] at lengths
        omega
      rw [second] at ok
      rw [missing]
      exact ok

theorem ReorderPlan.ofInputsSame [Widths] {a : ReorderAttributes} {p : ReorderPlan}
    (same : given.map Tensor.descriptor = inputs.map Tensor.descriptor) (ok : ofInputs a inputs = .ok (p, true)) :
    ofInputs a given = .ok (p, true) := by
  simp only [ofInputs, Result.bindOk, Result.ofOptionOk] at ok ⊢
  obtain ⟨data, first, _, supported, ⟨mean, constant⟩, resolved, perElement, fits, last⟩ := ok
  cases last
  obtain ⟨missing, _⟩ | ⟨data', other, first', found, described⟩ := Tensor.sameHead same
  · rw [missing] at first; cases first
  cases first.symm.trans first'
  exact ⟨other, found, (), by rw [described]; exact supported, (mean, true), resolveMeanSame same resolved, perElement,
    by rw [described]; exact fits, by rw [described]; rfl⟩

theorem NmsPlan.floatsSame {s t : Tensor} {dims : List Nat} (same : s.descriptor = t.descriptor) (floats : Floats t dims) :
    Floats s dims := by
  constructor
  · rw [Tensor.type, same]; exact floats.type
  · rw [Tensor.format, same]; exact floats.plain
  · rw [Tensor.dims, same]; exact floats.dims

theorem NmsPlan.ofInputsSame {a : NmsAttributes} {p : NmsPlan}
    (same : given.map Tensor.descriptor = inputs.map Tensor.descriptor) (ok : ofInputs a inputs = .ok p) :
    ofInputs a given = .ok p := by
  rw [ofInputsOk] at ok ⊢
  obtain ⟨boxes, scores, rest, rfl, attributes, first, second⟩ := ok
  simp only [List.map_cons, List.map_eq_cons_iff] at same
  obtain ⟨boxes', _, rfl, b, scores', rest', rfl, s, _⟩ := same
  exact ⟨boxes', scores', rest', rfl, attributes, floatsSame b first, floatsSame s second⟩

theorem GatherTreePlan.ofInputsSame {p : GatherTreePlan} (same : given.map Tensor.descriptor = inputs.map Tensor.descriptor)
    (ok : ofInputs inputs = .ok p) : ofInputs given = .ok p := by
  rw [ofInputsOk] at ok ⊢
  obtain ⟨steps, parents, lengths, endToken, rfl, plain, dims, parentsDims, lengthsDims, single, type⟩ := ok
  have grouped := Tensor.sameAll same (fun d => d.format = .plain) plain
  simp only [List.map_cons, List.map_nil, List.map_eq_cons_iff, List.map_eq_nil_iff] at same
  obtain ⟨steps', _, rfl, s, parents', _, rfl, p', lengths', _, rfl, l, endToken', _, rfl, e, rfl⟩ := same
  refine ⟨steps', parents', lengths', endToken', rfl, grouped, ?_, ?_, ?_, ?_, ?_⟩
  · rw [Tensor.dims, s]; exact dims
  · rw [Tensor.dims, p', Tensor.dims, s]; exact parentsDims
  · rw [Tensor.dims, l]; exact lengthsDims
  · rw [Tensor.count, e]; exact single
  · rw [Tensor.type, s]; exact type

theorem NmsAttributes.planGiven {a : NmsAttributes} {context : PlanContext} {plan : ExecutionPlan}
    (ok : a.plan inputs context = .ok plan) (same : given.map Tensor.descriptor = plan.inputs) :
    a.plan given context = .ok plan := by
  obtain ⟨p, _, made, planned⟩ := planCases ok
  have same : given.map Tensor.descriptor = inputs.map Tensor.descriptor := by rw [same, planned]
  rw [← ok]
  simp only [NmsAttributes.plan, NmsPlan.ofInputsSame same made, made, same]

theorem GatherTree.planGiven {context : PlanContext} {plan : ExecutionPlan} (ok : GatherTree.plan inputs context = .ok plan)
    (same : given.map Tensor.descriptor = plan.inputs) : GatherTree.plan given context = .ok plan := by
  obtain ⟨p, _, made, planned⟩ := planCases ok
  have same : given.map Tensor.descriptor = inputs.map Tensor.descriptor := by rw [same, planned]
  rw [← ok]
  simp only [GatherTree.plan, GatherTreePlan.ofInputsSame same made, made, same]

theorem Validity.ofLastingEq {constant : Bool} : Validity.ofLasting constant = .lasting ↔ constant = true := by
  cases constant <;> decide

theorem PadAttributes.lastingConstant {a : PadAttributes} (lasting : a.validity = .lasting) : a.isDataDependent = false := by
  simpa using Validity.ofLastingEq.mp lasting

theorem BroadcastAttributes.lastingConstant {a : BroadcastAttributes} (lasting : a.validity = .lasting) :
    a.isDataDependent = false := by
  simpa using Validity.ofLastingEq.mp lasting

inductive Attributes.Plans [Widths] (inputs : List Tensor) : Attributes → List Descriptor → Prop where
  | gatherTree {p : GatherTreePlan} (made : GatherTreePlan.ofInputs inputs = .ok p) :
      Plans inputs .gatherTree [.plain [p.steps, p.batches, p.beams] p.type]
  | pad {a : PadAttributes} {r : PadRequest} (made : PadRequest.ofInputs a inputs = .ok r) : Plans inputs (.pad a) [r.target]
  | broadcast {a : BroadcastAttributes} {p : BroadcastPlan} (made : BroadcastPlan.ofInputs a inputs = .ok p) :
      Plans inputs (.broadcast a) [p.target]
  | reorder {a : ReorderAttributes} {p : ReorderPlan} {constant : Bool}
      (made : ReorderPlan.ofInputs a inputs = .ok (p, constant)) : Plans inputs (.reorder a) [p.target]
  | matrixNms {a : NmsAttributes} {p : NmsPlan} (made : NmsPlan.ofInputs a inputs = .ok p) :
      Plans inputs (.matrixNms a) p.outputs

theorem Attributes.Plans.single [Widths] {a : Attributes} {descriptors : List Descriptor} (made : a.Plans inputs descriptors)
    (single : a.Single) : descriptors.length = 1 := by
  cases made with
  | matrixNms _ => simp [Single, kind] at single
  | _ => rfl

namespace BuiltinKernel
variable {k : BuiltinKernel} {attributes : Attributes} {context : PlanContext} {plan : ExecutionPlan}

theorem plans [Widths] (ok : k.plan attributes inputs context = .ok plan) :
    plan.inputs = inputs.map Tensor.descriptor ∧ attributes.Plans inputs plan.outputs := by
  unfold BuiltinKernel.plan at ok
  split at ok
  · obtain ⟨_, _, _, made, _, rfl⟩ := PadAttributes.planCases ok
    exact ⟨rfl, .pad made⟩
  · obtain ⟨_, _, _, made, _, rfl⟩ := PadAttributes.planElementsCases ok
    exact ⟨rfl, .pad made⟩
  · obtain ⟨_, _, made, _, _, rfl⟩ := BroadcastAttributes.planCases ok
    exact ⟨rfl, .broadcast made⟩
  · obtain ⟨_, _, _, made, _, rfl⟩ := BroadcastAttributes.planElementsCases ok
    exact ⟨rfl, .broadcast made⟩
  · obtain ⟨_, _, _, _, made, _, rfl⟩ := ReorderAttributes.planCases ok
    exact ⟨rfl, .reorder made⟩
  · obtain ⟨_, _, made, rfl⟩ := ReorderAttributes.planElementsCases ok
    exact ⟨rfl, .reorder made⟩
  · obtain ⟨_, _, made, rfl⟩ := NmsAttributes.planCases ok
    exact ⟨rfl, .matrixNms made⟩
  · obtain ⟨_, _, made, rfl⟩ := GatherTree.planCases ok
    exact ⟨rfl, .gatherTree made⟩
  · exact (Result.failNotOk ok).elim

theorem planDescriptors [Widths] (ok : k.plan attributes inputs context = .ok plan) :
    plan.inputs = inputs.map Tensor.descriptor ∧ (attributes.Single → plan.outputs.length = 1) :=
  ⟨(plans ok).1, (plans ok).2.single⟩

theorem planLasting [Widths] (ok : k.plan attributes inputs context = .ok plan) (lasting : plan.validity = .lasting)
    (same : given.map Tensor.descriptor = inputs.map Tensor.descriptor) :
    k.plan attributes given context = .ok plan := by
  have takes := (plans ok).1
  unfold BuiltinKernel.plan at ok ⊢
  split at ok
  · rename_i a
    obtain ⟨_, _, _, _, _, made⟩ := PadAttributes.planCases ok
    rw [made] at lasting
    have constant := PadAttributes.lastingConstant lasting
    rw [← ok]
    simp only [PadAttributes.plan, PadRequest.ofInputsSame constant same, same]
  · rename_i a
    obtain ⟨_, _, _, _, _, made⟩ := PadAttributes.planElementsCases ok
    rw [made] at lasting
    have constant := PadAttributes.lastingConstant lasting
    rw [← ok]
    simp only [PadAttributes.planElements, PadRequest.ofInputsSame constant same, same]
  · rename_i a
    obtain ⟨_, _, _, _, _, made⟩ := BroadcastAttributes.planCases ok
    rw [made] at lasting
    have constant := BroadcastAttributes.lastingConstant lasting
    rw [← ok]
    simp only [BroadcastAttributes.plan, BroadcastPlan.ofInputsSame constant same, same]
  · rename_i a
    obtain ⟨_, _, _, _, _, made⟩ := BroadcastAttributes.planElementsCases ok
    rw [made] at lasting
    have constant := BroadcastAttributes.lastingConstant lasting
    rw [← ok]
    simp only [BroadcastAttributes.planElements, BroadcastPlan.ofInputsSame constant same, same]
  · rename_i a
    obtain ⟨p, constant, m, _, made, layout, last⟩ := ReorderAttributes.planCases ok
    rw [last] at lasting
    cases Validity.ofLastingEq.mp lasting
    rw [← ok]
    simp only [ReorderAttributes.plan, ReorderPlan.ofInputsSame same made, made, same]
  · rename_i a
    obtain ⟨p, constant, made, last⟩ := ReorderAttributes.planElementsCases ok
    rw [last] at lasting
    cases Validity.ofLastingEq.mp lasting
    rw [← ok]
    simp only [ReorderAttributes.planElements, ReorderPlan.ofInputsSame same made, made, same]
  · exact NmsAttributes.planGiven ok (same.trans takes.symm)
  · exact GatherTree.planGiven ok (same.trans takes.symm)
  · exact (Result.failNotOk ok).elim

theorem executeChecks [Widths] (k : BuiltinKernel) (s : Schedule) (plan : ExecutionPlan) (given : List Tensor) :
    ∃ rest, k.execute s plan given = Run.check plan given >>= rest := by
  cases k <;> exact ⟨_, rfl⟩

theorem executeReady [Widths] {s : Schedule} {outputs written : List Tensor}
    (ran : (k.execute s plan given).run outputs = (.ok (), written)) :
    given.map Tensor.descriptor = plan.inputs ∧ outputs.map Tensor.descriptor = plan.outputs := by
  obtain ⟨rest, checked⟩ := executeChecks k s plan given
  obtain ready | ⟨e, refused⟩ := Run.checkSettled plan given outputs
  · exact ready
  · rw [checked, Run.bindError refused] at ran
    cases ran

end BuiltinKernel
end TensorPlan
