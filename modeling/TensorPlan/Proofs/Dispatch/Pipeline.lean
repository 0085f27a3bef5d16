import TensorPlan.Element.UpperWord
import TensorPlan.Proofs.Dispatch.Contents
/-! Pipelines. Kernels run one after the other on the tensors there are so far, each into outputs of zeros. If nothing lies
behind the last channels of the tensors at the start, nothing ever does. -/
namespace TensorPlan

structure PipelineStep where
  kernel : BuiltinKernel
  attributes : Attributes
  context : PlanContext
  schedule : Schedule
  planned : List Nat
  given : List Nat

namespace PipelineStep
variable {s : PipelineStep} {tensors new : List Tensor}

def select (tensors : List Tensor) : List Nat → Result (List Tensor) :=
  Result.forEach fun i => Result.orFault tensors[i]?

section
variable [Widths]

def outputs (s : PipelineStep) (tensors : List Tensor) : Result (List Tensor) := do
  let plan ← s.kernel.plan s.attributes (← select tensors s.planned) s.context
  let given ← select tensors s.given
  let outputs ← Result.forEach Tensor.zeros plan.outputs
  return ((s.kernel.execute s.schedule plan given).run outputs).2

def run (s : PipelineStep) (tensors : List Tensor) : List Tensor :=
  match s.outputs tensors with
  | .ok new => tensors ++ new
  | .error _ => tensors

def runAll : List PipelineStep → List Tensor → List Tensor
  | [], tensors => tensors
  | s :: steps, tensors => runAll steps (s.run tensors)

omit [Widths] in
theorem selectMember {places : List Nat} (ok : select tensors places = .ok new) : ∀ t ∈ new, t ∈ tensors := by
  intro t member
  obtain ⟨i, _, found⟩ := Result.forEachMember ok t member
  cases place : tensors[i]? with
  | none => rw [place] at found; cases found
  | some t' =>
    rw [place] at found
    cases found
    exact List.mem_of_getElem? place

theorem outputsTails (zero : ∀ t ∈ tensors, t.ZeroTails) (ok : s.outputs tensors = .ok new) : ∀ t ∈ new, t.ZeroTails := by
  simp only [outputs, Result.bindOk] at ok
  obtain ⟨_, _, plan, planned, given, selected, fresh, zeros, last⟩ := ok
  cases last
  have ready := Tensor.zerosDescribed zeros
  obtain ⟨written, leaves, tails⟩ | ⟨h, failed⟩ := BuiltinKernel.runSettles planned s.schedule given
  · rw [leaves fresh ready]
    exact tails fun t member => zero t (selectMember selected t member)
  · rw [failed fresh ready]
    intro t member
    obtain ⟨_, _, made⟩ := Result.forEachMember zeros t member
    exact Tensor.tailsOfZeros (Tensor.zerosMade made).2

theorem runTails (zero : ∀ t ∈ tensors, t.ZeroTails) : ∀ t ∈ s.run tensors, t.ZeroTails := by
  unfold run
  cases left : s.outputs tensors with
  | error h => exact zero
  | ok new =>
    intro t member
    rcases List.mem_append.mp member with before | after
    · exact zero t before
    · exact outputsTails zero left t after

/-- Whatever kernels run after each other, there is nothing behind the last channels of what they leave. -/
theorem runAllTails (steps : List PipelineStep) (tensors : List Tensor) (zero : ∀ t ∈ tensors, t.ZeroTails) :
    ∀ t ∈ runAll steps tensors, t.ZeroTails := by
  induction steps generalizing tensors with
  | nil => exact zero
  | cons s steps ih => exact ih (s.run tensors) (runTails zero)

end

theorem runAllTailsOfBorder :
    let picture : Tensor := ⟨⟨[1, 3, 1], .u8, .blocked8⟩, [1, 2, 3, 0, 0, 0, 0, 0], rfl⟩
    let border : PadAttributes := ⟨.constant, some [0, 0, 1], some [0, 0, 0], some (Binary.ofInt .double 9)⟩
    let steps : List PipelineStep :=
      [⟨.padElements, .pad border, ⟨2, 0⟩, .inOrder, [0], [0]⟩,
        ⟨.reorderSpans, .reorder ⟨.i8, .blocked8, .ignore, [], false⟩, ⟨2, 0⟩, .inOrder, [1], [1]⟩]
    (runAll steps [picture]).map Tensor.data = [[1, 2, 3, 0, 0, 0, 0, 0], [9, 9, 9, 0, 0, 0, 0, 0, 1, 2, 3, 0, 0, 0, 0, 0],
      [9, 9, 9, 0, 0, 0, 0, 0, 1, 2, 3, 0, 0, 0, 0, 0]] ∧ ∀ t ∈ runAll steps [picture], t.ZeroTails := by
  intro picture border steps
  refine ⟨by decide +kernel, runAllTails steps [picture] (List.forall_mem_singleton.mpr ?_)⟩
  intro l layout
  cases layout
  decide

end PipelineStep
end TensorPlan
