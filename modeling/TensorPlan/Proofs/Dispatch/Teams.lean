import TensorPlan.Element.UpperWord
import TensorPlan.Proofs.Dispatch.Lasting
import TensorPlan.Proofs.Splitting
/-! Teams of workers. The team that a plan is made for decides its partition and nothing else, and all partitions
of the same work run alike, so what a kernel writes, and how it fails, does not depend on the team. -/
namespace TensorPlan

section
variable (work team team' : Nat)

theorem PadPlan.fillTeams (p : PadPlan) : p.fill (.ofTeam work team) = p.fill (.ofTeam work team') := by
  funext source bytes
  unfold fill
  split
  · have every : ∀ i, (i + 1) * 0 ≤ 0 → p.pattern.length = p.pattern.length := fun _ _ => rfl
    refine Partition.overwriteTeams (Bytes.itemwiseDivisible every fun s _ => ?_) work team team' bytes
    rw [Nat.mul_zero, if_pos (Nat.le_refl 0), Span.items, Bytes.repeatedItems s.length s.start]
  · rfl
  · exact Partition.overwriteEachTeams _ _ _ _ _ _

theorem PadRequest.fillTeams [Widths] (r : PadRequest) : r.fill (.ofTeam work team) = r.fill (.ofTeam work team') := by
  funext source bytes
  simp only [fill, Partition.overwriteEachTeams work team team']

theorem BroadcastPlan.fillBlocksTeams (p : BroadcastPlan) :
    p.fillBlocks (.ofTeam work team) = p.fillBlocks (.ofTeam work team') := by
  funext source bytes
  simp only [fillBlocks, Partition.overwriteEachTeams work team team']

theorem BroadcastPlan.fillElementsTeams (p : BroadcastPlan) :
    p.fillElements (.ofTeam work team) = p.fillElements (.ofTeam work team') := by
  funext source bytes
  simp only [fillElements, Partition.overwriteEachTeams work team team']

theorem ReorderPlan.fillTeams [Widths] (p : ReorderPlan) : p.fill (.ofTeam work team) = p.fill (.ofTeam work team') := by
  funext source bytes
  have copied : Bytes.Divisible p.targetSize fun s _ => p.sourceSpan source s :=
    Bytes.itemwiseDivisible (fun _ inside => Bytes.itemLength inside) fun s _ => p.sourceSpanEq source s
  have converted : Bytes.Divisible p.targetSize fun s _ => p.convertSpan source s :=
    Bytes.itemwiseDivisible (fun _ inside => ElementType.convertLength (Bytes.itemLength inside) _ _)
      fun s _ => p.convertSpanEq source s
  simp only [fill, Partition.overwriteTeams copied work team team', Partition.overwriteTeams converted work team team',
    Partition.overwriteEachTeams work team team']

end

structure ExecutionPlan.Resplit (plan plan' : ExecutionPlan) : Prop where
  inputs : plan'.inputs = plan.inputs
  outputs : plan'.outputs = plan.outputs
  validity : plan'.validity = plan.validity
  body : plan'.body = plan.body
  teams : ∃ work team team', plan.partition = .ofTeam work team ∧ plan'.partition = .ofTeam work team'

theorem ExecutionPlan.resplitTeams (inputs outputs : List Descriptor) (validity : Validity) (work team team' : Nat)
    (body : PlanBody) : Resplit ⟨inputs, outputs, validity, .ofTeam work team, body⟩
      ⟨inputs, outputs, validity, .ofTeam work team', body⟩ :=
  ⟨rfl, rfl, rfl, rfl, work, team, team', rfl, rfl⟩

namespace GatherTree
variable {inputs given outputs : List Tensor} {context context' : PlanContext} {plan plan' : ExecutionPlan} {p : GatherTreePlan}

theorem runGivenFails [Widths] (ok : GatherTree.plan inputs context = .ok plan) (body : plan.body = .gatherTree p)
    (held : given.map Tensor.descriptor = plan.inputs) (ready : outputs.map Tensor.descriptor = plan.outputs) :
    ∃ decoded, GatherTreeInputs.ofTensors given = some decoded ∧ ∀ s h,
      ((GatherTreePlan.execute s plan given).run outputs).1 = .error h ↔ plan.partition.forEach s (p.column decoded) = .error h := by
  obtain ⟨p', decoded, body', found, fails⟩ := runFails (planGiven ok held) ready
  cases body.symm.trans body'
  exact ⟨decoded, found, fails⟩

theorem firstOfSpan {decoded : GatherTreeInputs} {h : Halt} {span : Span} :
    Result.forEach (p.column decoded) span.items = .error h ↔ p.FirstFailure decoded span.items h := by
  unfold Span.items
  rw [Result.forEachError]
  simp only [GatherTreePlan.FirstFailure, List.mem_range'_1]
  constructor
  · rintro ⟨item, low, high, failed, before⟩
    exact ⟨item, ⟨low, high⟩, failed, fun j inside earlier => before j inside.1 earlier⟩
  · rintro ⟨item, ⟨low, high⟩, failed, before⟩
    exact ⟨item, low, high, failed, fun j later earlier => before j ⟨later, by omega⟩ earlier⟩

theorem runResplit [Widths] (ok : GatherTree.plan inputs context = .ok plan) (ok' : GatherTree.plan inputs context' = .ok plan')
    (resplit : plan.Resplit plan') (held : given.map Tensor.descriptor = plan.inputs)
    (ready : outputs.map Tensor.descriptor = plan.outputs) (s s' : Schedule) :
    (GatherTreePlan.execute s' plan' given).run outputs = (GatherTreePlan.execute s plan given).run outputs ∨
      GatherTreePlan.BothStray ((GatherTreePlan.execute s plan given).run outputs).1
        ((GatherTreePlan.execute s' plan' given).run outputs).1 := by
  obtain ⟨p, decoded, body, found, ran⟩ := runColumns (planGiven ok held)
  obtain ⟨p', decoded', body', found', ran'⟩ := runColumns (planGiven ok' (held.trans resplit.inputs.symm))
  cases body.symm.trans (resplit.body.symm.trans body')
  cases found.symm.trans found'
  have ready' := ready.trans resplit.outputs.symm
  obtain ⟨columns, t, gathered, leaves, described, data⟩ | ⟨⟨_, failed⟩, stops⟩ := ran
  · obtain ⟨columns', t', gathered', leaves', described', data'⟩ | ⟨⟨_, failed'⟩, _⟩ := ran'
    · cases gathered.symm.trans gathered'
      rw [leaves s outputs ready, leaves' s' outputs ready',
        Tensor.same (described.trans described'.symm) (data.trans data'.symm)]
      exact .inl rfl
    · cases gathered.symm.trans failed'
  · obtain ⟨columns', _, gathered', _⟩ | ⟨_, stops'⟩ := ran'
    · cases failed.symm.trans gathered'
    · obtain ⟨h, _, invalid, stopped⟩ := stops s
      obtain ⟨h', _, invalid', stopped'⟩ := stops' s'
      exact .inr ⟨p, h, h', by rw [stopped outputs ready], by rw [stopped' outputs ready'], invalid, invalid'⟩

end GatherTree

namespace BuiltinKernel

theorem planResplit [Widths] (k : BuiltinKernel) (attributes : Attributes) (inputs : List Tensor) (context context' : PlanContext) :
    Result.Agree ExecutionPlan.Resplit (k.plan attributes inputs context) (k.plan attributes inputs context') := by
  unfold BuiltinKernel.plan
  split
  · exact .bind fun _ _ => .bind fun _ _ => .ok (ExecutionPlan.resplitTeams ..)
  · exact .bind fun _ _ => .bind fun _ _ => .ok (ExecutionPlan.resplitTeams ..)
  · exact .bind fun _ _ => .bind fun _ _ => .ok (ExecutionPlan.resplitTeams ..)
  · exact .bind fun _ _ => .bind fun _ _ => .ok (ExecutionPlan.resplitTeams ..)
  · exact .bind fun _ _ => .bind fun _ _ => .ok (ExecutionPlan.resplitTeams ..)
  · exact .bind fun _ _ => .ok (ExecutionPlan.resplitTeams ..)
  · exact .bind fun _ _ => .ok (ExecutionPlan.resplitTeams ..)
  · exact .bind fun _ _ => .ok (ExecutionPlan.resplitTeams ..)
  · exact .error _

theorem planTeam [Widths] (k : BuiltinKernel) (attributes : Attributes) (inputs : List Tensor) {context context' : PlanContext}
    (same : context.team = context'.team) : k.plan attributes inputs context = k.plan attributes inputs context' := by
  cases k <;> cases attributes <;> simp only [plan, PadAttributes.plan, PadAttributes.planElements, BroadcastAttributes.plan,
    BroadcastAttributes.planElements, ReorderAttributes.plan, NmsAttributes.plan, GatherTree.plan, same]

theorem executeUnscheduled [Widths] {k : BuiltinKernel} (different : k ≠ gatherTree) (s s' : Schedule) : k.execute s = k.execute s' := by
  cases k with
  | gatherTree => exact (different rfl).elim
  | _ => rfl

theorem executeResplit [Widths] {k : BuiltinKernel} (different : k ≠ gatherTree) {plan plan' : ExecutionPlan}
    (resplit : plan.Resplit plan') (s : Schedule) : k.execute s plan' = k.execute s plan := by
  obtain ⟨_, _, _, _, _⟩ := plan
  obtain ⟨inputs, outputs, validity, partition, body⟩ := plan'
  obtain ⟨rfl, rfl, rfl, rfl, work, team, team', rfl, rfl⟩ := resplit
  funext given
  cases k with
  | padRows => cases body <;> simp only [execute, PadPlan.execute, Run.check, PadPlan.fillTeams work team' team]
  | padElements => cases body <;> simp only [execute, PadRequest.execute, Run.check, PadRequest.fillTeams work team' team]
  | broadcastBlocks =>
    cases body <;> simp only [execute, BroadcastPlan.executeBlocks, BroadcastPlan.executeWith, Run.check,
      BroadcastPlan.fillBlocksTeams work team' team]
  | broadcastElements =>
    cases body <;> simp only [execute, BroadcastPlan.executeElements, BroadcastPlan.executeWith, Run.check,
      BroadcastPlan.fillElementsTeams work team' team]
  | reorderSpans =>
    cases body <;> simp only [execute, ReorderPlan.execute, ReorderPlan.executeWith, Run.check,
      ReorderPlan.fillTeams work team' team]
  | reorderElements => cases body <;> rfl
  | matrixNms => cases body <;> simp only [execute, NmsPlan.execute, Run.check, Partition.ofTeamItems]
  | gatherTree => exact (different rfl).elim

section
variable {k : BuiltinKernel} {attributes : Attributes} {inputs : List Tensor} {context context' : PlanContext}
  {plan plan' : ExecutionPlan}

theorem gatheredAttributes [Widths] (ok : gatherTree.plan attributes inputs context = .ok plan) : attributes = .gatherTree := by
  cases attributes with
  | gatherTree => rfl
  | pad | broadcast | reorder | matrixNms => exact (Result.failNotOk ok).elim

theorem runResplit [Widths] (ok : k.plan attributes inputs context = .ok plan) (ok' : k.plan attributes inputs context' = .ok plan')
    (resplit : plan.Resplit plan') (s s' : Schedule) (given outputs : List Tensor) :
    (k.execute s' plan' given).run outputs = (k.execute s plan given).run outputs ∨ k = gatherTree ∧
      GatherTreePlan.BothStray ((k.execute s plan given).run outputs).1 ((k.execute s' plan' given).run outputs).1 := by
  by_cases different : k ≠ gatherTree
  · rw [executeResplit different resplit, executeUnscheduled different s' s]
    exact .inl rfl
  cases not_not.mp different
  cases gatheredAttributes ok
  obtain ⟨rest, checked⟩ := executeChecks gatherTree s plan given
  obtain ⟨rest', checked'⟩ := executeChecks gatherTree s' plan' given
  obtain ⟨held, ready⟩ | ⟨e, refused⟩ := Run.checkSettled plan given outputs
  · exact (GatherTree.runResplit ok ok' resplit held ready s s').imp_right fun stray => ⟨rfl, stray⟩
  · have refused' : (Run.check plan' given).run outputs = (Except.error (.error e), outputs) := by
      rw [← refused, Run.check, Run.check, resplit.inputs, resplit.outputs]
    rw [checked, checked', Run.bindError refused, Run.bindError refused']
    exact .inl rfl

theorem gatheredReports [Widths] {p : GatherTreePlan} (ok : GatherTree.plan inputs context = .ok plan) (body : plan.body = .gatherTree p)
    {given outputs : List Tensor} {decoded : GatherTreeInputs}
    (fails : ∀ s h, ((gatherTree.execute s plan given).run outputs).1 = .error h ↔
      plan.partition.forEach s (p.column decoded) = .error h) :
    (∀ h, (∃ s, ((gatherTree.execute s plan given).run outputs).1 = .error h) ↔
        ∃ span ∈ plan.partition.spans, p.FirstFailure decoded span.items h) ∧
      ∀ h, ((gatherTree.execute .inOrder plan given).run outputs).1 = .error h ↔
        p.FirstFailure decoded (List.range (p.batches * p.beams)) h := by
  constructor
  · intro h
    simp only [fails, Partition.forEachReports, GatherTree.firstOfSpan]
  · intro h
    obtain ⟨_, team, _, rfl⟩ := GatherTree.planCases ok
    cases body
    have all : Span.items ⟨0, p.batches * p.beams⟩ = List.range (p.batches * p.beams) := List.range_eq_range'.symm
    rw [fails, Partition.forEachInOrder, Partition.ofTeamItems, ← all, GatherTree.firstOfSpan]

end

end BuiltinKernel
end TensorPlan
