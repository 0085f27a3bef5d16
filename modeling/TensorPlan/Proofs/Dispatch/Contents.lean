import TensorPlan.Element.UpperWord
import TensorPlan.Proofs.Dispatch.Lasting
import TensorPlan.Proofs.Tails
/-! Contents of outputs. A planned run either writes every byte of its outputs, so that nothing of what they held
before is left, or it fails before it writes any. -/
namespace TensorPlan.BuiltinKernel
variable {k : BuiltinKernel} {attributes : Attributes} {inputs : List Tensor} {context : PlanContext}
  {plan : ExecutionPlan}

section
variable [Widths]

inductive Ends (k : BuiltinKernel) (plan : ExecutionPlan) (given : List Tensor) : Prop where
  | writes (written : List Tensor) (leaves : ∀ s, Run.Leaves (k.execute s plan given) plan.outputs written)
      (tails : (∀ t ∈ given, t.ZeroTails) → ∀ t ∈ written, t.ZeroTails)
  | fails (h : Halt) (stops : ∀ s, Run.Stops (k.execute s plan given) plan.outputs h)
  | strays (gathers : k = gatherTree) (p : GatherTreePlan)
      (stops : ∀ s, ∃ h, p.InvalidParent h ∧ Run.Stops (k.execute s plan given) plan.outputs h)

theorem runEnds (ok : k.plan attributes inputs context = .ok plan) (given : List Tensor) : k.Ends plan given := by
  by_cases same : given.map Tensor.descriptor = plan.inputs
  swap
  · refine .fails (.error (.inputsDiffer (given.map Tensor.descriptor) plan.inputs)) fun s outputs _ => ?_
    obtain ⟨rest, checked⟩ := executeChecks k s plan given
    rw [checked]
    exact Run.bindError (Run.checkRefuses same outputs)
  have described := same.trans (plans ok).1
  unfold BuiltinKernel.plan at ok
  split at ok
  · obtain ⟨_, p, team, request, planned, rfl⟩ := PadAttributes.planCases ok
    obtain ⟨t, tails, leaves⟩ := PadAttributes.tailsLeave request described _
    exact .writes [t] (fun _ => leaves.rows p team planned) fun _ => List.forall_mem_singleton.mpr tails
  · obtain ⟨_, m, team, request, layout, rfl⟩ := PadAttributes.planElementsCases ok
    obtain ⟨t, tails, leaves⟩ := PadAttributes.tailsLeave request described _
    exact .writes [t] (fun _ => leaves.elements m team layout) fun _ => List.forall_mem_singleton.mpr tails
  · obtain ⟨_, team, made, plain, _, rfl⟩ := BroadcastAttributes.planCases ok
    obtain ⟨t, tails, leaves⟩ := BroadcastAttributes.tailsLeave made described _
    exact .writes [t] (fun _ => leaves.blocks team plain) fun _ => List.forall_mem_singleton.mpr tails
  · obtain ⟨_, m, team, made, layout, rfl⟩ := BroadcastAttributes.planElementsCases ok
    obtain ⟨t, tails, leaves⟩ := BroadcastAttributes.tailsLeave made described _
    exact .writes [t] (fun _ => leaves.elements m team layout) fun _ => List.forall_mem_singleton.mpr tails
  · obtain ⟨_, _, m, team, made, layout, rfl⟩ := ReorderAttributes.planCases ok
    obtain ⟨t, _, _, tails, leaves⟩ := ReorderAttributes.tailsLeave made described _
    exact .writes [t] (fun _ => leaves.spans m team layout) fun zero => List.forall_mem_singleton.mpr (tails zero)
  · obtain ⟨_, _, made, rfl⟩ := ReorderAttributes.planElementsCases ok
    obtain ⟨_, t, tails, _, leaves⟩ := ReorderAttributes.tailsLeave made described _
    exact .writes [t] (fun _ => leaves.elements _) fun _ => List.forall_mem_singleton.mpr tails
  · have own := NmsAttributes.planGiven ok same
    by_cases indexable : ∀ t ∈ given.take 2, t.descriptor.Indexable
    · obtain ⟨written, leaves, plain⟩ := NmsAttributes.runLeaves own indexable
      exact .writes written (fun _ => leaves) fun _ t member => Tensor.tailsUnblocked (by rw [plain t member]; rfl)
    · push Not at indexable
      exact .fails _ fun _ outputs ready => NmsAttributes.runTooLarge own ready indexable
  · obtain ⟨p, _, _, _, ⟨_, t, _, leaves, plain, _⟩ | ⟨_, stops⟩⟩ := GatherTree.runColumns (GatherTree.planGiven ok same)
    · exact .writes [t] leaves fun _ => List.forall_mem_singleton.mpr
        (Tensor.tailsUnblocked (by rw [Tensor.format, plain]; rfl))
    · exact .strays rfl p fun s => (stops s).imp fun h found => found.2
  · exact (Result.failNotOk ok).elim

theorem runSettles (ok : k.plan attributes inputs context = .ok plan) (s : Schedule) (given : List Tensor) :
    (∃ written, Run.Leaves (k.execute s plan given) plan.outputs written ∧
        ((∀ t ∈ given, t.ZeroTails) → ∀ t ∈ written, t.ZeroTails)) ∨
      ∃ h, Run.Stops (k.execute s plan given) plan.outputs h := by
  cases runEnds ok given with
  | writes written leaves tails => exact .inl ⟨written, leaves s, tails⟩
  | fails h stops => exact .inr ⟨h, stops s⟩
  | strays gathers p stops => exact .inr ((stops s).imp fun h found => found.2)

structure EndsAlike (first second : Except Halt Unit × List Tensor) : Prop where
  result : first.1 = second.1
  written : first.1 = .ok () → first.2 = second.2

section
variable {first second : Run Unit} {ds : List Descriptor} {outputs outputs' : List Tensor}
  (ready : outputs.map Tensor.descriptor = ds) (ready' : outputs'.map Tensor.descriptor = ds)
include ready ready'

omit [Widths] in
theorem leavesAlike {written : List Tensor} (leaves : Run.Leaves first ds written) (leaves' : Run.Leaves second ds written) :
    EndsAlike (first.run outputs) (second.run outputs') := by
  rw [leaves outputs ready, leaves' outputs' ready']
  exact ⟨rfl, fun _ => rfl⟩

omit [Widths] in
theorem stopsAlike {h : Halt} (stops : Run.Stops first ds h) (stops' : Run.Stops second ds h) :
    EndsAlike (first.run outputs) (second.run outputs') := by
  rw [stops outputs ready, stops' outputs' ready']
  exact ⟨rfl, nofun⟩

end

/-- On outputs that hold other bytes a run has the same result and, if it succeeds, leaves the same tensors behind. So it
does under another schedule, except that gathering may report another invalid parent. -/
theorem contentsOverwritten (k : BuiltinKernel) (attributes : Attributes) (inputs : List Tensor) (context : PlanContext)
    (plan : ExecutionPlan) (ok : k.plan attributes inputs context = .ok plan) (given outputs outputs' : List Tensor)
    (ready : outputs.map Tensor.descriptor = plan.outputs) (ready' : outputs'.map Tensor.descriptor = plan.outputs) :
    (∀ s, EndsAlike ((k.execute s plan given).run outputs) ((k.execute s plan given).run outputs')) ∧
      ∀ s s', EndsAlike ((k.execute s plan given).run outputs) ((k.execute s' plan given).run outputs') ∨ k = gatherTree ∧
        GatherTreePlan.BothStray ((k.execute s plan given).run outputs).1 ((k.execute s' plan given).run outputs').1 := by
  cases runEnds ok given with
  | writes written leaves _ =>
    exact ⟨fun s => leavesAlike ready ready' (leaves s) (leaves s), fun s s' => .inl (leavesAlike ready ready' (leaves s) (leaves s'))⟩
  | fails h stops =>
    exact ⟨fun s => stopsAlike ready ready' (stops s) (stops s), fun s s' => .inl (stopsAlike ready ready' (stops s) (stops s'))⟩
  | strays gathers p stops =>
    refine ⟨fun s => ?_, fun s s' => .inr ⟨gathers, p, ?_⟩⟩
    · obtain ⟨h, _, stopped⟩ := stops s
      exact stopsAlike ready ready' stopped stopped
    · obtain ⟨h, invalid, stopped⟩ := stops s
      obtain ⟨h', invalid', stopped'⟩ := stops s'
      exact ⟨h, h', by rw [stopped outputs ready], by rw [stopped' outputs' ready'], invalid, invalid'⟩

end

theorem contentsOverwrittenOfCutRows :
    let boxes : Tensor := ⟨.plain [1, 2, 4] .f32, Bytes.zeros 32, rfl⟩
    let scores : Tensor := ⟨.plain [1, 1, 2] .f32, [0, 0, 128, 63, 0, 0, 0, 0], rfl⟩
    let outputs (b : UInt8) : List Tensor := [⟨.plain [2, 6] .f32, List.replicate 48 b, rfl⟩,
      ⟨.plain [2, 1] .i64, List.replicate 16 b, rfl⟩, ⟨.plain [1] .i64, List.replicate 8 b, rfl⟩]
    let a : NmsAttributes := { NmsAttributes.unset with dynamicOutput := true }
    ∃ plan written, matrixNms.plan (.matrixNms a) [boxes, scores] ⟨1, 0⟩ = .ok plan ∧
      (matrixNms.execute .inOrder plan [boxes, scores]).run (outputs 0) = (.ok (), written) ∧
      (matrixNms.execute .inOrder plan [boxes, scores]).run (outputs 255) = (.ok (), written) ∧
      written.map Tensor.dims = [[1, 6], [1, 1], [1]] := by
  intro boxes scores outputs a
  obtain ⟨plan, made⟩ : ∃ plan, matrixNms.plan (.matrixNms a) [boxes, scores] ⟨1, 0⟩ = .ok plan := ⟨_, rfl⟩
  have ready : ∀ b, (outputs b).map Tensor.descriptor = plan.outputs := by cases made; intro b; rfl
  obtain ⟨result, written⟩ := (contentsOverwritten matrixNms _ _ _ plan made [boxes, scores] (outputs 0) (outputs 255)
    (ready 0) (ready 255)).1 .inOrder
  have done : ((matrixNms.execute .inOrder plan [boxes, scores]).run (outputs 0)).1 = .ok () := by
    cases made; decide +kernel
  have cut : ((matrixNms.execute .inOrder plan [boxes, scores]).run (outputs 0)).2.map Tensor.dims = [[1, 6], [1, 1], [1]] := by
    cases made; decide +kernel
  exact ⟨plan, _, made, Prod.ext done rfl, Prod.ext (result.symm.trans done) (written done).symm, cut⟩

end TensorPlan.BuiltinKernel
