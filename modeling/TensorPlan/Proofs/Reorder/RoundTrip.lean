import TensorPlan.Dispatch.Builtin
import TensorPlan.Element.UpperWord
import TensorPlan.Proofs.Integers
import TensorPlan.Proofs.Reorder.Conversion
/-! Reordering there and back. Without a mean nothing is lost where the type between holds each value: each element returns
to its place with the bytes that it had, and what lies between the elements is zero before and after. -/
namespace TensorPlan
open Index (Within)

section
variable [Widths]

def BuiltinKernel.Reorders (k : BuiltinKernel) (a : ReorderAttributes) (given : List Tensor) (out : Tensor) : Prop :=
  ∀ inputs context, inputs.map Tensor.descriptor = given.map Tensor.descriptor → ∃ plan,
    k.plan (.reorder a) inputs context = .ok plan ∧ plan.outputs = [out.descriptor] ∧
      ∀ s, Run.Leaves (k.execute s plan given) plan.outputs [out]

def ReorderPlan.plain (a : ReorderAttributes) (d : Descriptor) : ReorderPlan :=
  ⟨d, ⟨d.dims, a.type, a.format⟩, .ignore, [], false, if a.truncate then .towardZero else .halfEven⟩

namespace ReorderAttributes
variable {a : ReorderAttributes} {t : Tensor} {inputs : List Tensor} {k : BuiltinKernel}

theorem ofInputsPlain {d : Descriptor} (ignored : a.meanMode = .ignore) (supported : a.format.supportsRank d.rank = true)
    (first : (inputs.map Tensor.descriptor).head? = some d) : ReorderPlan.ofInputs a inputs = .ok (.plain a d, true) := by
  rw [List.head?_map, Option.map_eq_some_iff] at first
  obtain ⟨data, head, rfl⟩ := first
  simp only [ReorderPlan.ofInputs, head, Result.ofOptionSome, Result.okBind, supported, Result.ensure,
    ReorderPlan.resolveMean, ReorderPlan.meanPerElement, ignored, if_true]
  rfl

theorem runsConvert (ignored : a.meanMode = .ignore) (supported : a.format.supportsRank t.rank = true) (tails : t.ZeroTails)
    (kind : k.kind = .reorder) (rest : List Tensor) : ∃ out, k.Reorders a (t :: rest) out ∧
      out.descriptor = ⟨t.dims, a.type, a.format⟩ ∧ out.ZeroTails ∧ ∃ r, ∀ coords, Within coords t.dims →
        ∃ bytes, t.element? coords = some bytes ∧ out.element? coords = some (t.type.convert bytes a.type r) := by
  have made : ReorderPlan.ofInputs a (t :: rest) = .ok (.plain a t.descriptor, true) := ofInputsPlain ignored supported rfl
  obtain ⟨source, _, _, fast, slow, found, _, _, _, _, shows, leaves⟩ := ReorderPlan.runsShow made rfl (.ofLasting true)
  cases found
  have same : fast = slow := shows.same tails
  have target : [(ReorderPlan.plain a t.descriptor).target] = [slow.descriptor] := by rw [shows.described]
  refine ⟨slow, fun inputs context like => ?_, shows.described, shows.tails, (ReorderPlan.plain a t.descriptor).rounding,
    fun coords within => ?_⟩
  · have planned : ReorderPlan.ofInputs a inputs = .ok (.plain a t.descriptor, true) :=
      ofInputsPlain ignored supported (by rw [like]; rfl)
    cases k with
    | reorderSpans =>
      obtain ⟨m, layout, plan⟩ := planOk planned context
      rw [like] at plan
      exact ⟨_, plan, target, fun _ => same ▸ leaves.spans m context.team layout⟩
    | reorderElements =>
      have plan := planElementsOk planned
      rw [like] at plan
      exact ⟨_, plan, target, fun _ => leaves.elements _⟩
    | padRows | padElements | broadcastBlocks | broadcastElements | matrixNms | gatherTree => cases kind
  · obtain ⟨before, after, origin, goal, converts⟩ := shows.elements coords within
    cases converts with
    | exactly => exact ⟨before, origin, goal⟩
    | combined used => exact (used rfl).elim

/-- A tensor reordered into any format that its rank has, and into a type that holds its values, is restored by reordering
back, whichever kernels do it. -/
theorem roundTripsRestore (t : Tensor) (tails : t.ZeroTails) (format : MemoryFormat)
    (supported : format.supportsRank t.rank = true) (between : ElementType) (holds : between.Holds t.type)
    (k k' : BuiltinKernel) (kind : k.kind = .reorder) (kind' : k'.kind = .reorder) (mean mean' : List Single)
    (truncate truncate' : Bool) (rest rest' : List Tensor) :
    ∃ mid : Tensor, mid.descriptor = ⟨t.dims, between, format⟩ ∧
      k.Reorders ⟨between, format, .ignore, mean, truncate⟩ (t :: rest) mid ∧
      k'.Reorders ⟨t.type, t.format, .ignore, mean', truncate'⟩ (mid :: rest') t := by
  obtain ⟨mid, there, described, midTails, r, elements⟩ := runsConvert
    (a := ⟨between, format, .ignore, mean, truncate⟩) rfl supported tails kind rest
  have dims : mid.dims = t.dims := by rw [Tensor.dims, described]
  have type : mid.type = between := by rw [Tensor.type, described]
  have own : t.format.supportsRank mid.rank = true := by
    obtain ⟨l, layout, _⟩ := t.layoutFits
    obtain ⟨format, dims'⟩ := Descriptor.layoutOk layout
    have supports := l.supported
    rwa [format, dims', ← Tensor.dims, ← dims] at supports
  obtain ⟨out, back, described', outTails, r', elements'⟩ := runsConvert
    (a := ⟨t.type, t.format, .ignore, mean', truncate'⟩) rfl own midTails kind' rest'
  have restored : out = t := by
    refine Tensor.sameOfElements (by rw [described', dims]; rfl) outTails tails fun coords within => ?_
    have inside : Within coords t.dims := by rwa [Tensor.dims, described', dims] at within
    obtain ⟨bytes, origin, goal⟩ := elements coords inside
    obtain ⟨between', origin', goal'⟩ := elements' coords (by rwa [dims])
    cases goal.symm.trans origin'
    rw [goal', origin, type]
    exact congrArg some (ElementType.convertBack holds (Tensor.elementSize origin) r r')
  exact ⟨mid, described, there, restored ▸ back⟩

end ReorderAttributes
end

namespace ReorderAttributes

theorem roundTripsRestoreOfBytes :
    let t : Tensor := ⟨⟨[1, 3, 1], .i8, .blocked8⟩, [128, 255, 7, 0, 0, 0, 0, 0], rfl⟩
    let mid : Tensor :=
      ⟨⟨[1, 3, 1], .i32, .channelsLast⟩, [128, 255, 255, 255, 255, 255, 255, 255, 7, 0, 0, 0], rfl⟩
    BuiltinKernel.reorderSpans.Reorders ⟨.i32, .channelsLast, .ignore, [], false⟩ [t] mid ∧
      BuiltinKernel.reorderElements.Reorders ⟨.i8, .blocked8, .ignore, [], true⟩ [mid] t := by
  intro t mid
  have tails : t.ZeroTails := by
    intro l layout
    cases layout
    decide +kernel
  have holds : ElementType.i32.Holds t.type := .inr ⟨_, _, _, _, rfl, rfl, by decide, by decide⟩
  obtain ⟨mid', described, there, back⟩ := roundTripsRestore t tails .channelsLast rfl .i32 holds .reorderSpans
    .reorderElements rfl rfl [] [] false true [] []
  obtain ⟨plan, planned, outputs, leaves⟩ := there [t] ⟨2, 0⟩ rfl
  let ready : Tensor := ⟨⟨[1, 3, 1], .i32, .channelsLast⟩, Bytes.zeros 12, rfl⟩
  have run := leaves .inOrder [ready] (by rw [outputs, described]; rfl)
  have written : ((BuiltinKernel.reorderSpans.execute .inOrder plan [t]).run [ready]).2.map Tensor.data = [mid.data] := by
    cases planned
    decide +kernel
  have same : mid' = mid := by
    rw [run] at written
    exact Tensor.same described (List.singleton_inj.mp written)
  exact ⟨same ▸ there, same ▸ back⟩

end ReorderAttributes
end TensorPlan
