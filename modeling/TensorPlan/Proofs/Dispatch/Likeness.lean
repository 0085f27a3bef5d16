import TensorPlan.Proofs.Dispatch.Outcomes
import TensorPlan.Proofs.Dispatch.Registry
import TensorPlan.Proofs.Dispatch.Teams
import TensorPlan.Proofs.Shape.Refinement
/-! Kernels alike. On inputs that fit the slots it was chosen for, a kernel plans, or fails to plan, as the reference
of its operator does, and the runs of both plans are the same, for all teams of workers. -/
namespace TensorPlan

def Attributes.Apart (attributes : Attributes) (context context' : PlanContext) (s s' : Schedule) : Prop :=
  attributes = .gatherTree ∧ (context.team = context'.team → s ≠ s')

def Kernel.Alike (k other : Kernel) (attributes : Attributes) (inputs : List Tensor) (context context' : PlanContext) :
    Prop :=
  (∃ h, k.plan attributes inputs context = .error h ∧ other.plan attributes inputs context' = .error h) ∨
    ∃ plan plan', k.plan attributes inputs context = .ok plan ∧ other.plan attributes inputs context' = .ok plan' ∧
      plan.outputs = plan'.outputs ∧ ∀ s s' outputs, outputs.map Tensor.descriptor = plan.outputs →
        (k.execute s plan inputs).run outputs = (other.execute s' plan' inputs).run outputs ∨
          attributes.Apart context context' s s' ∧ GatherTreePlan.BothStray ((k.execute s plan inputs).run outputs).1
            ((other.execute s' plan' inputs).run outputs).1

structure Slot.Accepts (slot : Slot) (t : Tensor) : Prop where
  type : t.type = slot.type
  format : t.format = slot.format
  shape : slot.shape.compatible t.shape = true

theorem Shape.knownLength {s : Shape} {dims : List Nat} (agree : s.compatible (.ofDims dims) = true) {axis n : Nat}
    (known : s.dim axis = .known n) : dims[axis]? = some n := by
  have own := (compatibleRefines.mp agree).dim axis
  rw [known] at own
  cases found : dims[axis]? with
  | none => rw [show (ofDims dims).dim axis = .unknown by simp [dim, dim?, dims?, ofDims, found]] at own; cases own
  | some length =>
    rw [show (ofDims dims).dim axis = .known length by simp [dim, dim?, dims?, ofDims, found]] at own
    cases own
    rfl

variable [Widths]

namespace PadPlan

omit [Widths] in
theorem widthAt {what : String} {rank : Nat} {first v : Int} {rest : List Int} {ws : List Nat} {inputs : List Tensor}
    {position : Nat} (ok : PadRequest.resolveWidths (some (first :: v :: rest)) inputs position what rank = .ok ws) :
    0 ≤ v ∧ ws[1]? = some v.toNat := by
  obtain ⟨_, natural, same⟩ := PadRequest.widthsOk ok
  exact ⟨natural v (by simp), by rw [same]; rfl⟩

omit [Widths] in
theorem wholeGroups {v : Int} {block : Nat} (natural : 0 ≤ v) : (v.toNat % block == 0) = (v % (block : Int) == 0) := by
  rw [Bool.eq_iff_iff, beq_iff_eq, beq_iff_eq]
  obtain ⟨n, same⟩ := Int.eq_ofNat_of_zero_le natural
  rw [same, Int.toNat_natCast]
  omega

omit [Widths] in
theorem noWidth {v : Int} (natural : 0 ≤ v) : (v.toNat == 0) = (v == 0) := by
  rw [Bool.eq_iff_iff, beq_iff_eq, beq_iff_eq]
  omega

theorem groupsFit {p : KernelParams} {a : PadAttributes} {inputs : List Tensor} {r : PadRequest}
    (own : p.attributes = .pad a) (supported : BuiltinKernel.padRowsSupports p = true)
    (fit : List.Forall₂ Slot.Accepts p.inputs inputs) (request : PadRequest.ofInputs a inputs = .ok r) :
    checkGroups r = .ok () := by
  obtain ⟨data, first, described, mode, before, after, _, _⟩ := PadRequest.ofInputsParts request
  unfold BuiltinKernel.padRowsSupports at supported
  rw [own] at supported
  cases slots : p.inputs with
  | nil => rw [slots] at supported; cases supported
  | cons slot rest =>
    rw [slots] at supported fit
    match inputs, fit, first with
    | t :: ts, .cons accepts _, first =>
      cases first
      have format : r.source.format = slot.format := by rw [← described]; exact accepts.format
      unfold checkGroups
      rw [format]
      simp only at supported
      cases grouped : slot.format.blockSize? with
      | none => rfl
      | some block =>
        rw [grouped] at supported
        simp only at supported
        split at supported
        · rename_i channels front b behind front' e behind' known hbefore hafter
          rw [hbefore] at before
          rw [hafter] at after
          obtain ⟨naturalBefore, beforeAt⟩ := widthAt before
          obtain ⟨naturalAfter, afterAt⟩ := widthAt after
          have channelsAt : r.source.dims[1]? = some channels := by
            rw [← described]; exact Shape.knownLength accepts.shape known
          simp only [channelsAt, beforeAt, afterAt, Result.orFaultSome, Result.okBind, mode, wholeGroups naturalBefore,
            wholeGroups naturalAfter, noWidth naturalBefore, noWidth naturalAfter]
          exact Result.ensureOk.mpr supported
        · cases supported

end PadPlan

namespace BuiltinKernel
variable {inputs : List Tensor} (context context' : PlanContext)

theorem selfAlike (k : BuiltinKernel) (attributes : Attributes) :
    k.kernel.Alike k.kernel attributes inputs context context' := by
  obtain failed | ⟨plan, plan', ok, ok', resplit⟩ := (k.planResplit attributes inputs context context').either
  · exact .inl failed
  · refine .inr ⟨plan, plan', ok, ok', resplit.outputs.symm, fun s s' outputs _ => ?_⟩
    by_cases together : context.team = context'.team ∧ s = s'
    · obtain ⟨team, rfl⟩ := together
      cases ok.symm.trans ((k.planTeam attributes inputs team).trans ok')
      exact .inl rfl
    · obtain same | ⟨rfl, stray⟩ := runResplit ok ok' resplit s s' inputs outputs
      · exact .inl same.symm
      · exact .inr ⟨⟨gatheredAttributes ok, not_and.mp together⟩, stray⟩

theorem padRowsAlike {a : PadAttributes}
    (groups : ∀ r, PadRequest.ofInputs a inputs = .ok r → PadPlan.checkGroups r = .ok ()) :
    padRows.kernel.Alike padElements.kernel (.pad a) inputs context context' := by
  cases request : PadRequest.ofInputs a inputs with
  | error h =>
    have rows : a.plan inputs context = .error h := by rw [PadAttributes.plan, request]; rfl
    have elements : a.planElements inputs context' = .error h := by rw [PadAttributes.planElements, request]; rfl
    exact .inl ⟨h, rows, elements⟩
  | ok r =>
    obtain ⟨_, _, rows⟩ := PadAttributes.planOk request (groups r request) context
    obtain ⟨_, _, elements⟩ := PadAttributes.planElementsOk request context'
    refine .inr ⟨_, _, rows, elements, rfl, fun _ _ outputs ready => .inl ?_⟩
    obtain ⟨written, byRows, byElements⟩ := PadAttributes.runsWrite request ready
    exact (byRows _ _ rows).trans (byElements _ _ elements).symm

theorem broadcastBlocksAlike {a : BroadcastAttributes} (plain : ∀ data, inputs[0]? = some data → data.format = .plain) :
    broadcastBlocks.kernel.Alike broadcastElements.kernel (.broadcast a) inputs context context' := by
  cases made : BroadcastPlan.ofInputs a inputs with
  | error h =>
    have blocks : a.plan inputs context = .error h := by rw [BroadcastAttributes.plan, made]; rfl
    have elements : a.planElements inputs context' = .error h := by rw [BroadcastAttributes.planElements, made]; rfl
    exact .inl ⟨h, blocks, elements⟩
  | ok p =>
    obtain ⟨_, data, first, described⟩ := BroadcastPlan.ofInputsSound made
    have flat : p.source.format = .plain := by rw [← described]; exact plain data first
    have blocks := BroadcastAttributes.planOk made flat context
    obtain ⟨_, _, elements⟩ := BroadcastAttributes.planElementsOk made context'
    refine .inr ⟨_, _, blocks, elements, rfl, fun _ _ outputs ready => .inl ?_⟩
    obtain ⟨written, byBlocks, byElements⟩ := BroadcastAttributes.runsWrite made ready
    exact (byBlocks _ _ blocks).trans (byElements _ _ elements).symm

theorem reorderSpansAlike {a : ReorderAttributes} (tails : ∀ t ∈ inputs, t.ZeroTails) :
    reorderSpans.kernel.Alike reorderElements.kernel (.reorder a) inputs context context' := by
  cases made : ReorderPlan.ofInputs a inputs with
  | error h =>
    have spans : a.plan inputs context = .error h := by rw [ReorderAttributes.plan, made]; rfl
    have elements : a.planElements inputs = .error h := by rw [ReorderAttributes.planElements, made]; rfl
    exact .inl ⟨h, spans, elements⟩
  | ok planned =>
    obtain ⟨p, constant⟩ := planned
    obtain ⟨_, _, spans⟩ := ReorderAttributes.planOk made context
    have elements := ReorderAttributes.planElementsOk made
    refine .inr ⟨_, _, spans, elements, rfl, fun _ _ outputs ready => .inl ?_⟩
    obtain ⟨_, _, bySpans, byElements, same⟩ := ReorderAttributes.runsWrite made ready
    rw [same tails] at bySpans
    exact (bySpans _ _ spans).trans (byElements _ elements).symm

theorem alikeReference {k : BuiltinKernel} {p : KernelParams} (own : k.kind = p.kind) (supported : k.supports p = true)
    (plain : k = .broadcastBlocks → p.format? = some .plain) (fit : List.Forall₂ Slot.Accepts p.inputs inputs)
    (tails : ∀ t ∈ inputs, t.ZeroTails) :
    k.kernel.Alike (reference p.kind).kernel p.attributes inputs context context' := by
  obtain ⟨attributes, slots, outputs⟩ := p
  cases attributes with
  | gatherTree =>
    obtain rfl : k = gatherTree := by cases k <;> first | rfl | cases own
    exact selfAlike context context' gatherTree .gatherTree
  | pad a =>
    obtain rfl | rfl : k = padRows ∨ k = padElements := by cases k <;> first | exact .inl rfl | exact .inr rfl | cases own
    · exact padRowsAlike context context' fun r request => PadPlan.groupsFit rfl supported fit request
    · exact selfAlike context context' padElements (.pad a)
  | broadcast a =>
    obtain rfl | rfl : k = broadcastBlocks ∨ k = broadcastElements := by
      cases k <;> first | exact .inl rfl | exact .inr rfl | cases own
    · refine broadcastBlocksAlike context context' fun data first => ?_
      cases fit with
      | nil => cases first
      | cons accepts _ =>
        cases first
        exact accepts.format.trans (Option.some.inj (plain rfl))
    · exact selfAlike context context' broadcastElements (.broadcast a)
  | reorder a =>
    obtain rfl | rfl : k = reorderSpans ∨ k = reorderElements := by
      cases k <;> first | exact .inl rfl | exact .inr rfl | cases own
    · exact reorderSpansAlike context context' tails
    · exact selfAlike context context' reorderElements (.reorder a)
  | matrixNms a =>
    obtain rfl : k = matrixNms := by cases k <;> first | rfl | cases own
    exact selfAlike context context' matrixNms (.matrixNms a)

end BuiltinKernel
end TensorPlan
