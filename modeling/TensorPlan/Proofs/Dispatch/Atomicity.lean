import TensorPlan.Element.UpperWord
import TensorPlan.Proofs.Dispatch.Contents
import TensorPlan.Proofs.Interruption
/-! Failed runs. Any kernel can be given any plan, also that of another kernel. If it fails with an error of the library
it has not begun to write, so the outputs are as before, whatever a write that breaks off would have left behind. -/
namespace TensorPlan

namespace Run
variable {α β : Type}

def Reads (r : Run α) : Prop := ∀ outputs, (r.run outputs).2 = outputs

def Atomic (r : Run α) : Prop := ∀ outputs h, (r.run outputs).1 = .error h → (r.run outputs).2 = outputs

theorem Atomic.bind {r : Run α} {f : α → Run β} (reads : Reads r) (rest : ∀ x, Atomic (f x)) : Atomic (r >>= f) := by
  intro outputs h failed
  cases first : r.run outputs with
  | mk result held =>
    have same := reads outputs
    rw [first] at same
    cases same
    cases result with
    | error own => rw [bindError first]
    | ok x =>
      rw [bindOk first] at failed ⊢
      exact rest x _ h failed

theorem readsResult (r : Result α) : Reads (ofResult r) := fun outputs => by rw [runOfResult]

theorem Reads.atomic {r : Run α} (reads : Reads r) : Atomic r := fun outputs _ _ => reads outputs

theorem readsCheck (plan : ExecutionPlan) (inputs : List Tensor) : Reads (check plan inputs) := by
  intro outputs
  obtain ⟨given, ready⟩ | ⟨_, refused⟩ := checkSettled plan inputs outputs
  · rw [runCheck given ready]
  · rw [refused]

theorem overwriteAtomic (output : Nat) (f : Bytes → Result Bytes) : Atomic (overwrite output f) := by
  refine .bind (fun _ => rfl) fun outputs => .bind (readsResult _) fun t => .bind (readsResult _) fun new => ?_
  intro _ h failed
  cases failed

theorem transformAtomic (inputs : List Tensor) (f : Bytes → Bytes → Result Bytes) :
    Atomic (input inputs 0 >>= fun source => overwrite 0 (f source.data)) :=
  .bind (readsResult _) fun _ => overwriteAtomic _ _

theorem transformAlike {plan : ExecutionPlan} {inputs : List Tensor} {f : Bytes → Bytes → Result Bytes}
    {g : Bytes → Bytes → Result (Result Bytes)} (left : List Tensor → List Tensor)
    (stages : ∀ source bytes, (g source bytes).Stages (f source bytes)) :
    Alike (do
        check plan inputs
        let source ← input inputs 0
        overwriteLeaving left 0 (g source.data))
      (do
        check plan inputs
        let source ← input inputs 0
        overwrite 0 (f source.data)) :=
  .read fun _ => .read fun source => overwriteAlike left (stages source.data)

end Run

section
variable [Widths]

def NmsPlan.writeLeaving (left : List Tensor → List Tensor) (p : NmsPlan) (kept : List (List Selected)) : Run Unit := do
  let batches := p.perBatch kept
  let counts := batches.map List.length
  let (rows, last) := p.rows 0 (stretches counts (p.ordered batches))
  let size := p.attributes.indexType.size
  Run.overwriteLeaving left 0 (writeAllStaged 24 (rows.map fun r => (r.1, rowBytes r.2)))
  Run.overwriteLeaving left 1 (writeAllStaged size (rows.map fun r => (r.1, p.indexBytes (p.rowIndex r.2))))
  Run.overwriteLeaving left 2
    (writeAllStaged size ((List.range counts.length).zip (counts.map fun n => p.indexBytes (n : Nat))))
  if p.attributes.dynamicOutput then
    Run.update 0 (·.truncateOuter last)
    Run.update 1 (·.truncateOuter last)

theorem NmsPlan.writeAlike (left : List Tensor → List Tensor) (p : NmsPlan) (kept : List (List Selected)) :
    Run.Alike (p.writeLeaving left kept) (p.write kept) :=
  .bind (Run.overwriteAlike left (writeAllStages 24 _)) fun _ => .bind (Run.overwriteAlike left (writeAllStages _ _)) fun _ =>
    .bind (Run.overwriteAlike left (writeAllStages _ _)) fun _ => .same _

namespace BuiltinKernel
variable {k : BuiltinKernel}

def executeLeaving (left : List Tensor → List Tensor) (k : BuiltinKernel) (s : Schedule) (plan : ExecutionPlan)
    (inputs : List Tensor) : Run Unit :=
  let transform (f : Bytes → Bytes → Result (Result Bytes)) : Run Unit := do
    Run.check plan inputs
    let source ← Run.input inputs 0
    Run.overwriteLeaving left 0 (f source.data)
  match k, plan.body with
  | padRows, .pad p => transform (p.fillStaged plan.partition)
  | padElements, .padElements r => transform (r.fillStaged plan.partition)
  | broadcastBlocks, .broadcast p => transform (p.fillBlocksStaged plan.partition)
  | broadcastElements, .broadcast p => transform (p.fillElementsStaged plan.partition)
  | reorderSpans, .reorder p => transform (p.fillStaged plan.partition)
  | reorderElements, .reorder p => transform p.fillElementsStaged
  | matrixNms, .matrixNms p => do
    Run.check plan inputs
    let boxes ← Run.ofResult (NmsPlan.view "boxes" (← Run.input inputs 0))
    let scores ← Run.ofResult (NmsPlan.view "scores" (← Run.input inputs 1))
    let kept ← Run.ofResult (Result.forEach (p.item boxes scores) plan.partition.items)
    p.writeLeaving left kept
  | gatherTree, .gatherTree p => do
    Run.check plan inputs
    let steps ← Run.input inputs 0
    let parents ← Run.input inputs 1
    let lengths ← Run.input inputs 2
    let endTokens ← Run.input inputs 3
    let endToken := (endTokens.doubles.head?).getD (Binary.zero .double false)
    let decoded : GatherTreeInputs := ⟨steps.doubles, parents.doubles, lengths.doubles, endToken⟩
    let columns ← Run.ofResult (plan.partition.forEach s (p.column decoded))
    Run.overwriteLeaving left 0 (p.writeColumnsStaged columns)
  | _, _ => k.execute s plan inputs

theorem executeAlike (left : List Tensor → List Tensor) (k : BuiltinKernel) (s : Schedule) (plan : ExecutionPlan)
    (inputs : List Tensor) : Run.Alike (executeLeaving left k s plan inputs) (k.execute s plan inputs) := by
  obtain ⟨takes, makes, validity, partition, body⟩ := plan
  cases k <;> cases body
  case padRows.pad p => exact Run.transformAlike left (p.fillStages partition)
  case padElements.padElements r => exact Run.transformAlike left (r.fillStages partition)
  case broadcastBlocks.broadcast p => exact Run.transformAlike left (p.fillBlocksStages partition)
  case broadcastElements.broadcast p => exact Run.transformAlike left (p.fillElementsStages partition)
  case reorderSpans.reorder p => exact Run.transformAlike left (p.fillStages partition)
  case reorderElements.reorder p => exact Run.transformAlike left p.fillElementsStages
  case matrixNms.matrixNms p =>
    exact .read fun _ => .read fun _ => .read fun boxes => .read fun _ => .read fun scores => .read fun kept =>
      p.writeAlike left kept
  case gatherTree.gatherTree p =>
    exact .read fun _ => .read fun _ => .read fun _ => .read fun _ => .read fun _ => .read fun columns =>
      Run.overwriteAlike left (p.writeColumnsStages columns)
  all_goals exact .same _

theorem executeAtomic (different : k ≠ matrixNms) (s : Schedule) (plan : ExecutionPlan) (inputs : List Tensor) :
    Run.Atomic (k.execute s plan inputs) := by
  obtain ⟨takes, makes, validity, partition, body⟩ := plan
  cases k with
  | matrixNms => exact (different rfl).elim
  | gatherTree =>
    refine .bind (Run.readsCheck _ inputs) fun _ => ?_
    cases body with
    | gatherTree p =>
      exact .bind (Run.readsResult _) fun _ => .bind (Run.readsResult _) fun _ => .bind (Run.readsResult _) fun _ =>
        .bind (Run.readsResult _) fun _ => .bind (Run.readsResult _) fun columns => Run.overwriteAtomic 0 _
    | _ => exact (Run.readsResult _).atomic
  | _ =>
    refine .bind (Run.readsCheck _ inputs) fun _ => ?_
    cases body <;> first | exact (Run.readsResult _).atomic | exact Run.transformAtomic inputs _

variable {planner : BuiltinKernel} {attributes : Attributes} {inputs : List Tensor} {context : PlanContext}
  {plan : ExecutionPlan}

theorem plannerOfBody (ok : planner.plan attributes inputs context = .ok plan) :
    (∀ p, plan.body = .matrixNms p → planner = matrixNms) ∧
      ∀ p, plan.body = .gatherTree p → planner = gatherTree ∧ attributes = .gatherTree := by
  unfold BuiltinKernel.plan at ok
  split at ok
  · obtain ⟨_, _, _, _, _, rfl⟩ := PadAttributes.planCases ok; simp
  · obtain ⟨_, _, _, _, _, rfl⟩ := PadAttributes.planElementsCases ok; simp
  · obtain ⟨_, _, _, _, _, rfl⟩ := BroadcastAttributes.planCases ok; simp
  · obtain ⟨_, _, _, _, _, rfl⟩ := BroadcastAttributes.planElementsCases ok; simp
  · obtain ⟨_, _, _, _, _, _, rfl⟩ := ReorderAttributes.planCases ok; simp
  · obtain ⟨_, _, _, rfl⟩ := ReorderAttributes.planElementsCases ok; simp
  · obtain ⟨_, _, _, rfl⟩ := NmsAttributes.planCases ok; simp
  · obtain ⟨_, _, _, rfl⟩ := GatherTree.planCases ok; simp
  · exact (Result.failNotOk ok).elim

theorem plannedAtomic (ok : planner.plan attributes inputs context = .ok plan) (k : BuiltinKernel) (s : Schedule)
    (given : List Tensor) : Run.Atomic (k.execute s plan given) := by
  by_cases different : k ≠ matrixNms
  · exact executeAtomic different s plan given
  cases not_not.mp different
  intro outputs h failed
  obtain ⟨rest, checked⟩ := executeChecks matrixNms s plan given
  obtain ⟨_, ready⟩ | ⟨e, refused⟩ := Run.checkSettled plan given outputs
  swap
  · rw [checked, Run.bindError refused]
  by_cases own : ∃ p, plan.body = .matrixNms p
  · obtain ⟨p, body⟩ := own
    cases (plannerOfBody ok).1 p body
    obtain ⟨written, leaves, _⟩ | ⟨_, stopped⟩ := runSettles ok s given
    · rw [leaves outputs ready] at failed
      cases failed
    · rw [stopped outputs ready]
  · have foreign : Run.Atomic (NmsPlan.execute plan given) := by
      refine .bind (Run.readsCheck plan given) fun _ => ?_
      split
      · rename_i p body
        exact (own ⟨p, body⟩).elim
      · exact (Run.readsResult _).atomic
    exact foreign outputs h failed

theorem invalidUntouched (ok : planner.plan attributes inputs context = .ok plan) {p : GatherTreePlan}
    (body : plan.body = .gatherTree p) {given : List Tensor} {decoded : GatherTreeInputs}
    (held : GatherTreeInputs.ofTensors given = some decoded) {item : Nat} (inside : item < p.batches * p.beams) {h : Halt}
    (failed : p.column decoded item = .error h) (s : Schedule) (outputs : List Tensor) :
    ∃ e, (gatherTree.execute s plan given).run outputs = (.error (.error e), outputs) := by
  obtain ⟨rest, checked⟩ := executeChecks gatherTree s plan given
  obtain ⟨same, ready⟩ | ⟨e, refused⟩ := Run.checkSettled plan given outputs
  swap
  · exact ⟨e, by rw [checked, Run.bindError refused]⟩
  obtain ⟨rfl, rfl⟩ := (plannerOfBody ok).2 p body
  obtain ⟨_, _, body', held', ran⟩ := GatherTree.runColumns (GatherTree.planGiven ok same)
  cases body.symm.trans body'
  cases held.symm.trans held'
  obtain ⟨columns, _, found, _⟩ | ⟨_, stops⟩ := ran
  · obtain ⟨_, fine⟩ := Result.forEachEvery found item (List.mem_range.mpr inside)
    rw [failed] at fine
    cases fine
  · obtain ⟨_, _, ⟨_, _, _, _, rfl⟩, stopped⟩ := stops s
    exact ⟨_, stopped outputs ready⟩

/-- An error of the library comes before the first write. Even if a write that breaks off could leave anything behind,
a run with such an error changes no output, whichever kernel made the plan. -/
theorem failedUntouched (left : List Tensor → List Tensor) (planner k : BuiltinKernel) (attributes : Attributes)
    (inputs : List Tensor) (context : PlanContext) (plan : ExecutionPlan)
    (ok : planner.plan attributes inputs context = .ok plan) (s : Schedule) (given : List Tensor) :
    Run.Alike (k.executeLeaving left s plan given) (k.execute s plan given) ∧
      (∀ run ∈ [k.execute s plan given, k.executeLeaving left s plan given], ∀ outputs e changed,
        run.run outputs = (.error (.error e), changed) → changed = outputs) ∧
      ∀ p decoded item h, plan.body = .gatherTree p → GatherTreeInputs.ofTensors given = some decoded →
        item < p.batches * p.beams → p.column decoded item = .error h → ∀ outputs, ∃ e,
          (gatherTree.execute s plan given).run outputs = (.error (.error e), outputs) ∧
            (gatherTree.executeLeaving left s plan given).run outputs = (.error (.error e), outputs) := by
  refine ⟨executeAlike left k s plan given, fun run member outputs e changed failed => ?_,
    fun p decoded item h body held inside column outputs => ?_⟩
  · have plain {changed : List Tensor} (failed : (k.execute s plan given).run outputs = (.error (.error e), changed)) :
        changed = outputs := by
      have same := plannedAtomic ok k s given outputs (.error e) (by rw [failed])
      rwa [failed] at same
    simp only [List.mem_cons, List.not_mem_nil, or_false] at member
    rcases member with rfl | rfl
    · exact plain failed
    · obtain same | ⟨fault, _⟩ := executeAlike left k s plan given outputs
      · exact plain (same.symm.trans failed)
      · rw [failed] at fault
        cases fault
  · obtain ⟨e, failed⟩ := invalidUntouched ok body held inside column s outputs
    refine ⟨e, failed, ?_⟩
    obtain same | ⟨_, fault⟩ := executeAlike left gatherTree s plan given outputs
    · exact same.trans failed
    · rw [failed] at fault
      cases fault

end BuiltinKernel
end

namespace BuiltinKernel

theorem failedUntouchedOfSecondBeam :
    let steps : Tensor := ⟨.plain [1, 1, 2] .u8, [5, 6], rfl⟩
    let parents : Tensor := ⟨.plain [1, 1, 2] .u8, [0, 2], rfl⟩
    let lengths : Tensor := ⟨.plain [1] .u8, [1], rfl⟩
    let endToken : Tensor := ⟨.plain [] .u8, [9], rfl⟩
    let beams : Tensor := ⟨.plain [1, 1, 2] .u8, [7, 7], rfl⟩
    let row : Tensor := ⟨.plain [3] .u8, [1, 2, 3], rfl⟩
    let rows : Tensor := ⟨.plain [2, 3] .u8, [7, 7, 7, 7, 7, 7], rfl⟩
    ∃ plan plan' e, gatherTree.plan .gatherTree [steps, parents, lengths, endToken] ⟨1, 0⟩ = .ok plan ∧
      (gatherTree.executeLeaving (fun _ => []) .inOrder plan [steps, parents, lengths, endToken]).run [beams] =
        (.error (.error e), [beams]) ∧
      broadcastElements.plan (.broadcast ⟨some [2, 3], none⟩) [row] ⟨1, 0⟩ = .ok plan' ∧
      (broadcastBlocks.executeLeaving (fun _ => []) .inOrder plan' [row]).run [rows] =
        (.error (.error (.smallDestination 6 6 3)), [rows]) := by
  intro steps parents lengths endToken beams row rows
  let p : GatherTreePlan := ⟨1, 1, 2, .u8⟩
  let decoded : GatherTreeInputs := ⟨steps.doubles, parents.doubles, lengths.doubles, Binary.ofInt .double 9⟩
  obtain ⟨plan, made⟩ : ∃ plan, gatherTree.plan .gatherTree [steps, parents, lengths, endToken] ⟨1, 0⟩ = .ok plan :=
    ⟨_, rfl⟩
  have body : plan.body = .gatherTree p := by cases made; rfl
  have held : GatherTreeInputs.ofTensors [steps, parents, lengths, endToken] = some decoded := by decide +kernel
  have column : p.column decoded 1 = .error (.error (.parentRange (Binary.ofInt .double 2) 0 0 2)) := by decide +kernel
  obtain ⟨e, _, stopped⟩ := (failedUntouched (fun _ => []) gatherTree gatherTree _ _ _ plan made .inOrder
    [steps, parents, lengths, endToken]).2.2 p decoded 1 _ body held (by decide) column [beams]
  obtain ⟨plan', made'⟩ : ∃ plan, broadcastElements.plan (.broadcast ⟨some [2, 3], none⟩) [row] ⟨1, 0⟩ = .ok plan :=
    ⟨_, rfl⟩
  have refused : ((broadcastBlocks.executeLeaving (fun _ => []) .inOrder plan' [row]).run [rows]).1 =
      .error (.error (.smallDestination 6 6 3)) := by cases made'; decide +kernel
  have same := (failedUntouched (fun _ => []) broadcastElements broadcastBlocks _ _ _ plan' made' .inOrder [row]).2.1 _
    (List.mem_cons_of_mem _ List.mem_cons_self) [rows] _ _ (Prod.ext refused rfl)
  exact ⟨plan, plan', e, made, stopped, made', Prod.ext refused same⟩

end BuiltinKernel
end TensorPlan
