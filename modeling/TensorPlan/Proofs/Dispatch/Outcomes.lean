import TensorPlan.Element.UpperWord
import TensorPlan.Proofs.Dispatch.Lasting
/-! Outcomes of planned runs. Whichever plan a kernel has made for some inputs, its run on them and on outputs of
the planned descriptors writes these. Two kernels can still fail: one at a parent that is not the number of a beam,
the other at an array whose positions cannot be told apart. -/
namespace TensorPlan
variable {inputs outputs : List Tensor}
section
variable [Widths]

theorem PadAttributes.runsWrite {a : PadAttributes} {r : PadRequest} (request : PadRequest.ofInputs a inputs = .ok r)
    (ready : outputs.map Tensor.descriptor = [r.target]) : ∃ written,
      (∀ context plan, a.plan inputs context = .ok plan →
        (PadPlan.execute plan inputs).run outputs = (Except.ok (), written)) ∧
      ∀ context plan, a.planElements inputs context = .ok plan →
        (PadRequest.execute plan inputs).run outputs = (Except.ok (), written) := by
  obtain ⟨source, l, m, size, _, _, _, _, leaves⟩ := runsLeave request rfl a.validity
  refine ⟨[⟨r.target, r.output l m source.data, size⟩], fun context plan ok => ?_, fun context plan ok => ?_⟩
  · obtain ⟨_, p, team, request', planned, made⟩ := planCases ok
    cases request.symm.trans request'
    rw [made]
    exact leaves.rows p team planned outputs ready
  · obtain ⟨_, m, team, request', layout, made⟩ := planElementsCases ok
    cases request.symm.trans request'
    rw [made]
    exact leaves.elements m team layout outputs ready

omit [Widths] in
theorem BroadcastAttributes.runsWrite {a : BroadcastAttributes} {p : BroadcastPlan}
    (made : BroadcastPlan.ofInputs a inputs = .ok p) (ready : outputs.map Tensor.descriptor = [p.target]) : ∃ written,
      (∀ context plan, a.plan inputs context = .ok plan →
        (BroadcastPlan.executeBlocks plan inputs).run outputs = (Except.ok (), written)) ∧
      ∀ context plan, a.planElements inputs context = .ok plan →
        (BroadcastPlan.executeElements plan inputs).run outputs = (Except.ok (), written) := by
  obtain ⟨source, l, m, size, _, _, _, _, leaves⟩ := runsLeave made rfl a.validity
  refine ⟨[⟨p.target, p.output l m source.data, size⟩], fun context plan ok => ?_, fun context plan ok => ?_⟩
  · obtain ⟨_, team, made', plain, _, planned⟩ := planCases ok
    cases made.symm.trans made'
    rw [planned]
    exact leaves.blocks team plain outputs ready
  · obtain ⟨_, m, team, made', layout, planned⟩ := planElementsCases ok
    cases made.symm.trans made'
    rw [planned]
    exact leaves.elements m team layout outputs ready

theorem ReorderAttributes.runsWrite {a : ReorderAttributes} {p : ReorderPlan} {constant : Bool}
    (made : ReorderPlan.ofInputs a inputs = .ok (p, constant)) (ready : outputs.map Tensor.descriptor = [p.target]) :
    ∃ spans elements,
      (∀ context plan, a.plan inputs context = .ok plan →
        (ReorderPlan.execute plan inputs).run outputs = (Except.ok (), spans)) ∧
      (∀ plan, a.planElements inputs = .ok plan →
        (ReorderPlan.executeElements plan inputs).run outputs = (Except.ok (), elements)) ∧
      ((∀ t ∈ inputs, t.ZeroTails) → spans = elements) := by
  obtain ⟨source, fast, slow, found, spans, elements, _, _, _, tails⟩ := runsSettle made (.ofLasting constant) rfl ready
  refine ⟨[fast], [slow], fun context plan ok => ?_, fun plan ok => ?_, fun zero => ?_⟩
  · obtain ⟨_, _, m, team, made', layout, planned⟩ := planCases ok
    cases made.symm.trans made'
    rw [planned]
    exact spans m team layout
  · obtain ⟨_, _, made', planned⟩ := planElementsCases ok
    cases made.symm.trans made'
    rw [planned]
    exact elements _
  · rw [tails (zero source (List.mem_of_getElem? found))]

namespace BuiltinKernel

def Outcome (k : BuiltinKernel) (plan : ExecutionPlan) (inputs outputs : List Tensor)
    (result : Except Halt Unit × List Tensor) : Prop :=
  match k with
  | matrixNms =>
    ((∀ t ∈ inputs.take 2, t.descriptor.Indexable) → ∃ written, result = (.ok (), written)) ∧
      ((∃ t ∈ inputs.take 2, ¬ t.descriptor.Indexable) → result = (.error (.error .arrayTooLarge), outputs))
  | gatherTree =>
    (∃ written, result = (.ok (), written)) ∨
      ∃ p h, plan.body = .gatherTree p ∧ p.InvalidParent h ∧ result = (.error h, outputs)
  | _ => ∃ written, result = (.ok (), written)

variable {k : BuiltinKernel} {attributes : Attributes} {context : PlanContext} {plan : ExecutionPlan}

theorem runOutcome (s : Schedule) (ok : k.plan attributes inputs context = .ok plan)
    (ready : outputs.map Tensor.descriptor = plan.outputs) :
    k.Outcome plan inputs outputs ((k.execute s plan inputs).run outputs) := by
  unfold BuiltinKernel.plan at ok
  split at ok
  · obtain ⟨r, _, _, request, _, made⟩ := PadAttributes.planCases ok
    obtain ⟨written, rows, _⟩ := PadAttributes.runsWrite request (by rw [ready, made])
    exact ⟨written, rows _ _ ok⟩
  · obtain ⟨r, _, _, request, _, made⟩ := PadAttributes.planElementsCases ok
    obtain ⟨written, _, elements⟩ := PadAttributes.runsWrite request (by rw [ready, made])
    exact ⟨written, elements _ _ ok⟩
  · obtain ⟨p, _, planned, _, _, made⟩ := BroadcastAttributes.planCases ok
    obtain ⟨written, blocks, _⟩ := BroadcastAttributes.runsWrite planned (by rw [ready, made])
    exact ⟨written, blocks _ _ ok⟩
  · obtain ⟨p, _, _, planned, _, made⟩ := BroadcastAttributes.planElementsCases ok
    obtain ⟨written, _, elements⟩ := BroadcastAttributes.runsWrite planned (by rw [ready, made])
    exact ⟨written, elements _ _ ok⟩
  · obtain ⟨p, _, _, _, planned, _, made⟩ := ReorderAttributes.planCases ok
    obtain ⟨written, _, spans, _, _⟩ := ReorderAttributes.runsWrite planned (by rw [ready, made])
    exact ⟨written, spans _ _ ok⟩
  · obtain ⟨p, _, planned, made⟩ := ReorderAttributes.planElementsCases ok
    obtain ⟨_, written, _, elements, _⟩ := ReorderAttributes.runsWrite planned (by rw [ready, made])
    exact ⟨written, elements _ ok⟩
  · refine ⟨fun indexable => ?_, NmsAttributes.runTooLarge ok ready⟩
    obtain ⟨written, leaves, _⟩ := NmsAttributes.runLeaves ok indexable
    exact ⟨written, leaves outputs ready⟩
  · exact GatherTree.runEither ok ready s
  · exact (Result.failNotOk ok).elim

theorem plannedOutcome (k : BuiltinKernel) (attributes : Attributes) (inputs : List Tensor) (context : PlanContext)
    (plan : ExecutionPlan) (ok : k.plan attributes inputs context = .ok plan) (s : Schedule) (given outputs : List Tensor)
    (held : given = inputs ∨ plan.validity = .lasting ∧ given.map Tensor.descriptor = inputs.map Tensor.descriptor)
    (ready : outputs.map Tensor.descriptor = plan.outputs) :
    k.Outcome plan given outputs ((k.execute s plan given).run outputs) := by
  rcases held with own | ⟨lasting, same⟩
  · rw [own]; exact runOutcome s ok ready
  · exact runOutcome s (planLasting ok lasting same) ready

end BuiltinKernel
end

namespace BuiltinKernel

theorem plannedOutcomeOfBoxes :
    let boxes : Tensor := ⟨.plain [1, 2, 4] .f32, Bytes.zeros 32, rfl⟩
    let scores : Tensor := ⟨.plain [1, 1, 2] .f32, Bytes.zeros 8, rfl⟩
    let others : Tensor := ⟨.plain [1, 1, 2] .f32, List.replicate 8 63, rfl⟩
    let rows : Tensor := ⟨.plain [2, 6] .f32, Bytes.zeros 48, rfl⟩
    let indices : Tensor := ⟨.plain [2, 1] .i64, Bytes.zeros 16, rfl⟩
    let counts : Tensor := ⟨.plain [1] .i64, Bytes.zeros 8, rfl⟩
    ∃ plan written, matrixNms.plan (.matrixNms .unset) [boxes, scores] ⟨1, 0⟩ = .ok plan ∧
      (matrixNms.execute .inOrder plan [boxes, others]).run [rows, indices, counts] = (.ok (), written) := by
  intro boxes scores others rows indices counts
  obtain ⟨plan, made⟩ : ∃ plan, matrixNms.plan (.matrixNms .unset) [boxes, scores] ⟨1, 0⟩ = .ok plan := ⟨_, rfl⟩
  have lasting : plan.validity = .lasting := by cases made; rfl
  have ready : [rows, indices, counts].map Tensor.descriptor = plan.outputs := by cases made; rfl
  obtain ⟨fine, _⟩ := plannedOutcome matrixNms _ _ _ plan made .inOrder [boxes, others] [rows, indices, counts]
    (.inr ⟨lasting, rfl⟩) ready
  obtain ⟨written, done⟩ := fine fun t member => by
    simp only [List.take_succ_cons, List.take_nil, List.mem_cons, List.not_mem_nil, or_false] at member
    rcases member with same | same
    · rw [same]; exact show (8 : Nat) ≤ Grid.maxPositions by decide
    · rw [same]; exact show (2 : Nat) ≤ Grid.maxPositions by decide
  exact ⟨plan, written, made, done⟩

/-- No batch at all, of more boxes than indices can tell apart: there is a plan, and nothing to write, but the run
fails, and not at a parent. -/
theorem plannedRunFails :
    let boxes : Tensor := ⟨.plain [0, 2305843009213693952, 4] .f32, [], rfl⟩
    let scores : Tensor := ⟨.plain [0, 1, 2305843009213693952] .f32, [], rfl⟩
    let rows : Tensor := ⟨.plain [0, 6] .f32, [], rfl⟩
    let indices : Tensor := ⟨.plain [0, 1] .i64, [], rfl⟩
    let counts : Tensor := ⟨.plain [0] .i64, [], rfl⟩
    ∃ plan, matrixNms.plan (.matrixNms .unset) [boxes, scores] ⟨1, 0⟩ = .ok plan ∧
      [rows, indices, counts].map Tensor.descriptor = plan.outputs ∧
      (matrixNms.execute .inOrder plan [boxes, scores]).run [rows, indices, counts] =
        (.error (.error .arrayTooLarge), [rows, indices, counts]) := by
  intro boxes scores rows indices counts
  obtain ⟨plan, made⟩ : ∃ plan, matrixNms.plan (.matrixNms .unset) [boxes, scores] ⟨1, 0⟩ = .ok plan := ⟨_, rfl⟩
  have ready : [rows, indices, counts].map Tensor.descriptor = plan.outputs := by cases made; rfl
  have large : ¬ boxes.descriptor.Indexable := show ¬ 9223372036854775808 ≤ Grid.maxPositions by decide
  exact ⟨plan, made, ready, NmsAttributes.runTooLarge made ready ⟨boxes, by simp, large⟩⟩

end BuiltinKernel
end TensorPlan
